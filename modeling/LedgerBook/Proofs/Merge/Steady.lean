import LedgerBook.Proofs.Merge.Delivery
import LedgerBook.Proofs.Merge.Requests
/-!
Sources that do not look at the log. What such a source answers and requests is known from its state
alone, so that every side of a merge does, step by step, what its source does when it is read alone,
whatever the other sides and the consumer do in the meantime.
-/
namespace LedgerBook.Merge

variable {σ α : Type}

namespace Source

/-! ## Sources that are read alone -/

/-- A source that began at a state was asked some number of times, one after the other and without
anything in the log, and has not come out yet: the units that it has handed out, its requests, and
where it stands. -/
inductive Goes (source : Source σ α) (first : σ) : Nat → List α → List Request → σ → Prop
  | nothing : Goes source first 0 [] [] first
  | working {count : Nat} {units : List α} {made : List Request} {state : σ} :
      Goes source first count units made state →
      (source.advance state Log.empty).1 = .working →
      Goes source first (count + 1) units
        (made ++ (source.advance state Log.empty).2.2.requests)
        (source.advance state Log.empty).2.1
  | unit {count : Nat} {units : List α} {made : List Request} {state : σ} {value : α} :
      Goes source first count units made state →
      (source.advance state Log.empty).1 = .item value →
      Goes source first (count + 1) (units ++ [value])
        (made ++ (source.advance state Log.empty).2.2.requests)
        (source.advance state Log.empty).2.1

/-- A source that began at a state comes out after some units and requests. -/
def ComesOut (source : Source σ α) (first : σ) (units : List α) (made : List Request)
    (outcome : Outcome) : Prop :=
  ∃ count before state, source.Goes first count units before state ∧
    Message.ofProgress? (source.advance state Log.empty).1 = some (.last outcome) ∧
    made = before ++ (source.advance state Log.empty).2.2.requests

section Alone

variable {source : Source σ α} {first state other : σ} {count number : Nat} {units others : List α}
  {made more : List Request} {outcome : Outcome}

theorem Goes.unique (goes : source.Goes first count units made state)
    (again : source.Goes first count others more other) :
    units = others ∧ made = more ∧ state = other := by
  induction goes generalizing others more other with
  | nothing =>
      cases again
      exact ⟨rfl, rfl, rfl⟩
  | working _ answer inductionHypothesis =>
      cases again with
      | working before =>
          obtain ⟨rfl, rfl, rfl⟩ := inductionHypothesis before
          exact ⟨rfl, rfl, rfl⟩
      | unit before given =>
          obtain ⟨rfl, rfl, rfl⟩ := inductionHypothesis before
          cases answer.symm.trans given
  | unit _ answer inductionHypothesis =>
      cases again with
      | working before silent =>
          obtain ⟨rfl, rfl, rfl⟩ := inductionHypothesis before
          cases answer.symm.trans silent
      | unit before given =>
          obtain ⟨rfl, rfl, rfl⟩ := inductionHypothesis before
          cases answer.symm.trans given
          exact ⟨rfl, rfl, rfl⟩

/-- A source that was asked more often has handed out more and requested more. -/
theorem Goes.shorter (goes : source.Goes first count units made state)
    (later : source.Goes first number others more other) (fewer : count ≤ number) :
    units <+: others ∧ made <+: more := by
  induction later with
  | nothing =>
      cases Nat.le_zero.mp fewer
      obtain ⟨rfl, rfl, _⟩ := goes.unique .nothing
      exact ⟨List.prefix_rfl, List.prefix_rfl⟩
  | @working number others more other before answer inductionHypothesis =>
      rcases Nat.lt_or_eq_of_le fewer with less | rfl
      · obtain ⟨early, requested⟩ := inductionHypothesis (Nat.le_of_lt_succ less)
        exact ⟨early, requested.trans (List.prefix_append _ _)⟩
      · obtain ⟨rfl, rfl, _⟩ := goes.unique (.working before answer)
        exact ⟨List.prefix_rfl, List.prefix_rfl⟩
  | @unit number others more other value before answer inductionHypothesis =>
      rcases Nat.lt_or_eq_of_le fewer with less | rfl
      · obtain ⟨early, requested⟩ := inductionHypothesis (Nat.le_of_lt_succ less)
        exact ⟨early.trans (List.prefix_append _ _), requested.trans (List.prefix_append _ _)⟩
      · obtain ⟨rfl, rfl, _⟩ := goes.unique (.unit before answer)
        exact ⟨List.prefix_rfl, List.prefix_rfl⟩

/-- A source that is asked no more often than until it comes out. -/
theorem Goes.le_of_comesOut {before : List Request}
    (goes : source.Goes first count units made state)
    (reached : source.Goes first number others before other)
    (out : Message.ofProgress? (source.advance other Log.empty).1 = some (.last outcome)) :
    count ≤ number := by
  induction goes with
  | nothing => exact Nat.zero_le _
  | @working count units made state earlier answer inductionHypothesis =>
      refine Nat.lt_of_le_of_ne inductionHypothesis fun same => ?_
      subst same
      obtain ⟨_, _, rfl⟩ := earlier.unique reached
      rw [answer] at out
      cases out
  | @unit count units made state value earlier answer inductionHypothesis =>
      refine Nat.lt_of_le_of_ne inductionHypothesis fun same => ?_
      subst same
      obtain ⟨_, _, rfl⟩ := earlier.unique reached
      rw [answer] at out
      cases out

/-- Until a source comes out, it has handed out the first of its units. -/
theorem ComesOut.covers (out : source.ComesOut first others more outcome)
    (goes : source.Goes first count units made state) : units <+: others ∧ made <+: more := by
  obtain ⟨number, before, last, reached, ends, rfl⟩ := out
  obtain ⟨early, requested⟩ := goes.shorter reached (goes.le_of_comesOut reached ends)
  exact ⟨early, requested.trans (List.prefix_append _ _)⟩

theorem ComesOut.unique {otherOutcome : Outcome} (out : source.ComesOut first units made outcome)
    (again : source.ComesOut first others more otherOutcome) :
    units = others ∧ made = more ∧ outcome = otherOutcome := by
  obtain ⟨count, before, state, goes, ends, rfl⟩ := out
  obtain ⟨number, otherBefore, other, otherGoes, otherEnds, rfl⟩ := again
  have same : count = number :=
    Nat.le_antisymm (goes.le_of_comesOut otherGoes otherEnds) (otherGoes.le_of_comesOut goes ends)
  subst same
  obtain ⟨rfl, rfl, rfl⟩ := goes.unique otherGoes
  cases ends.symm.trans otherEnds
  exact ⟨rfl, rfl, rfl⟩

theorem Goes.cons_working (answer : (source.advance first Log.empty).1 = .working)
    (goes : source.Goes (source.advance first Log.empty).2.1 count units made state) :
    source.Goes first (count + 1) units ((source.advance first Log.empty).2.2.requests ++ made)
      state := by
  induction goes with
  | nothing => simpa using Goes.working .nothing answer
  | working _ again inductionHypothesis =>
      rw [← List.append_assoc]
      exact .working inductionHypothesis again
  | unit _ again inductionHypothesis =>
      rw [← List.append_assoc]
      exact .unit inductionHypothesis again

theorem Goes.cons_unit {value : α} (answer : (source.advance first Log.empty).1 = .item value)
    (goes : source.Goes (source.advance first Log.empty).2.1 count units made state) :
    source.Goes first (count + 1) (value :: units)
      ((source.advance first Log.empty).2.2.requests ++ made) state := by
  induction goes with
  | nothing => simpa using Goes.unit .nothing answer
  | working _ again inductionHypothesis =>
      rw [← List.append_assoc]
      exact .working inductionHypothesis again
  | unit _ again inductionHypothesis =>
      rw [← List.append_assoc, ← List.cons_append]
      exact .unit inductionHypothesis again

theorem ComesOut.of_last
    (last : Message.ofProgress? (source.advance first Log.empty).1 = some (.last outcome)) :
    source.ComesOut first [] (source.advance first Log.empty).2.2.requests outcome :=
  ⟨0, [], first, .nothing, last, rfl⟩

theorem ComesOut.cons_working (answer : (source.advance first Log.empty).1 = .working)
    (out : source.ComesOut (source.advance first Log.empty).2.1 units made outcome) :
    source.ComesOut first units ((source.advance first Log.empty).2.2.requests ++ made)
      outcome := by
  obtain ⟨count, before, state, goes, last, rfl⟩ := out
  exact ⟨count + 1, _, state, goes.cons_working answer, last, (List.append_assoc _ _ _).symm⟩

theorem ComesOut.cons_unit {value : α} (answer : (source.advance first Log.empty).1 = .item value)
    (out : source.ComesOut (source.advance first Log.empty).2.1 units made outcome) :
    source.ComesOut first (value :: units)
      ((source.advance first Log.empty).2.2.requests ++ made) outcome := by
  obtain ⟨count, before, state, goes, last, rfl⟩ := out
  exact ⟨count + 1, _, state, goes.cons_unit answer, last, (List.append_assoc _ _ _).symm⟩

end Alone

/-- In some of its states, a source does what another one does, whatever is in the log, and goes on
to such states only. -/
structure Follows (source reference : Source σ α) (kept : σ → Prop) : Prop where
  answers : ∀ state log, kept state →
    (source.advance state log).1 = (reference.advance state Log.empty).1 ∧
      (source.advance state log).2.1 = (reference.advance state Log.empty).2.1
  requests : ∀ state log, kept state → (source.advance state log).2.2.requests =
    log.requests ++ (reference.advance state Log.empty).2.2.requests
  keeps : ∀ state, kept state → kept (reference.advance state Log.empty).2.1

theorem Follows.goes {source reference : Source σ α} {kept : σ → Prop} {first state : σ}
    {count : Nat} {units : List α} {made : List Request} (follows : source.Follows reference kept)
    (begins : kept first) (goes : reference.Goes first count units made state) : kept state := by
  induction goes with
  | nothing => exact begins
  | working _ _ inductionHypothesis => exact follows.keeps _ inductionHypothesis
  | unit _ _ inductionHypothesis => exact follows.keeps _ inductionHypothesis

end Source

/-! ## Sides of a merge -/

/-- What a worker has put into the queue, and what it has requested, agrees with what it does, and
with what a source does that is read alone from the same beginning. -/
inductive Account (reference : Source σ α) (first : σ) :
    List (Message α) → List Request → Worker α → σ → Prop
  | waiting {count : Nat} {units : List α} {made : List Request} {state : σ} :
      reference.Goes first count units made state →
      Account reference first (units.map .item) made .waiting state
  | called {count : Nat} {units : List α} {made : List Request} {state : σ} :
      reference.Goes first count units made state →
      Account reference first (units.map .item) made .called state
  | pulling {count : Nat} {units : List α} {made : List Request} {state : σ} :
      reference.Goes first count units made state →
      Account reference first (units.map .item) made .pulling state
  | puttingUnit {count : Nat} {units : List α} {unit : α} {made : List Request} {state : σ} :
      reference.Goes first count (units ++ [unit]) made state →
      Account reference first (units.map .item) made (.putting (.item unit)) state
  | puttingOutcome {units : List α} {made : List Request} {outcome : Outcome} {state : σ} :
      reference.ComesOut first units made outcome →
      Account reference first (units.map .item) made (.putting (.last outcome)) state
  | dismissed {count : Nat} {units : List α} {made : List Request} {before state : σ} :
      reference.Goes first count units made before →
      Account reference first (units.map .item) made .gone state
  | finished {units : List α} {made : List Request} {outcome : Outcome} {state : σ} :
      reference.ComesOut first units made outcome →
      Account reference first (units.map .item ++ [.last outcome]) made .gone state

namespace Account

variable {source reference : Source σ α} {kept : σ → Prop} {first : σ} {told : List (Message α)}
  {made : List Request}

/-- The answer of a source, of whatever kind, goes on with the account. -/
theorem pull (follows : source.Follows reference kept) {count : Nat} {units : List α} {state : σ}
    (begins : kept first) (goes : reference.Goes first count units made state) (log : Log) :
    ∃ more, (source.advance state log).2.2.requests = log.requests ++ more ∧
      Account reference first (units.map .item) (made ++ more)
        (.ofProgress (source.advance state log).1) (source.advance state log).2.1 := by
  have keeps := follows.goes begins goes
  obtain ⟨sameAnswer, sameState⟩ := follows.answers state log keeps
  refine ⟨_, follows.requests state log keeps, ?_⟩
  rw [sameAnswer, sameState]
  cases answer : (reference.advance state Log.empty).1 with
  | working => exact .pulling (.working goes answer)
  | item unit => exact .puttingUnit (.unit goes answer)
  | ended => exact .puttingOutcome ⟨count, made, state, goes, by rw [answer]; rfl, rfl⟩
  | failed failure => exact .puttingOutcome ⟨count, made, state, goes, by rw [answer]; rfl, rfl⟩

/-- A step of the worker goes on with the account. -/
theorem step (follows : source.Follows reference kept) (begins : kept first)
    {side after : Side σ α} {stopped : Bool} {message : Option (Message α)} {log later : Log}
    (account : Account reference first told made side.worker side.source)
    (stepped : side.step source stopped log = some (message, after, later)) :
    ∃ more, later.requests = log.requests ++ more ∧
      Account reference first (told ++ message.toList) (made ++ more) after.worker
        after.source := by
  obtain ⟨label, state, worker, demand⟩ := side
  have silent {worker : Worker α} {state : σ} {told : List (Message α)} (log : Log)
      (account : Account reference first told made worker state) :
      ∃ more, log.requests = log.requests ++ more ∧
        Account reference first told (made ++ more) worker state :=
    ⟨[], (List.append_nil _).symm, by rwa [List.append_nil]⟩
  cases account with
  | waiting goes =>
      simp only [Side.step] at stepped
      split at stepped
      · cases stepped
      · cases stepped
        simpa using silent log (.called goes)
  | called goes =>
      cases stepped
      rw [Option.toList_none, List.append_nil]
      split
      · exact silent log (.dismissed goes)
      · exact silent log (.pulling goes)
  | pulling goes =>
      cases stepped
      rw [Option.toList_none, List.append_nil, requests_tellFailure]
      exact pull follows begins goes log
  | puttingUnit goes =>
      cases stepped
      simpa [Side.afterPut] using silent log (.waiting goes)
  | puttingOutcome out =>
      cases stepped
      exact silent log (.finished out)
  | dismissed => cases stepped
  | finished => cases stepped

/-- What was told of a side is some of what its source hands out before it comes out, or all of it
and how it came out. -/
theorem tells {worker : Worker α} {state : σ}
    (account : Account reference first told made worker state) :
    (∃ count units more last, reference.Goes first count units more last ∧
        told <+: units.map .item ∧ made = more) ∨
      ∃ units outcome, reference.ComesOut first units made outcome ∧
        (told = units.map .item ∨ told = units.map .item ++ [.last outcome]) := by
  cases account with
  | waiting goes | called goes | pulling goes | dismissed goes =>
      exact .inl ⟨_, _, _, _, goes, List.prefix_rfl, rfl⟩
  | puttingUnit goes =>
      exact .inl ⟨_, _, _, _, goes, (List.prefix_append _ _).map _, rfl⟩
  | puttingOutcome out => exact .inr ⟨_, _, out, .inl rfl⟩
  | finished out => exact .inr ⟨_, _, out, .inr rfl⟩

/-- What was told of a side, and requested, are the first of what its source hands out and requests
until it comes out. -/
theorem prefix_of_comesOut {worker : Worker α} {state : σ} {units : List α} {all : List Request}
    {outcome : Outcome} (account : Account reference first told made worker state)
    (out : reference.ComesOut first units all outcome) :
    told <+: units.map .item ++ [.last outcome] ∧ made <+: all := by
  rcases account.tells with
    ⟨count, early, more, last, goes, starts, rfl⟩ | ⟨early, found, outHere, same⟩
  · obtain ⟨shorter, requested⟩ := out.covers goes
    have within := starts.trans (shorter.map Message.item)
    exact ⟨within.trans (List.prefix_append _ _), requested⟩
  · obtain ⟨rfl, rfl, rfl⟩ := outHere.unique out
    rcases same with rfl | rfl
    · exact ⟨List.prefix_append _ _, List.prefix_rfl⟩
    · exact ⟨List.prefix_rfl, List.prefix_rfl⟩

/-- Once it is told how the source of a side came out, that is the last of all that is told. -/
theorem whole_of_last {worker : Worker α} {state : σ} {seen : List (Message α)} {outcome : Outcome}
    (account : Account reference first told made worker state) (starts : seen <+: told)
    (last : .last outcome ∈ seen) :
    ∃ units, reference.ComesOut first units made outcome ∧
      seen = units.map .item ++ [.last outcome] := by
  -- An outcome is not among the units, so that everything was told when it was.
  have notAmong {units : List α} (within : seen <+: units.map .item) : False :=
    Source.last_not_mem_map_item units outcome (within.subset last)
  rcases account.tells with ⟨_, units, _, _, _, within, _⟩ | ⟨units, found, out, rfl | rfl⟩
  · exact (notAmong (starts.trans within)).elim
  · exact (notAmong starts).elim
  · rcases List.prefix_concat_iff.mp starts with rfl | within
    · have same : outcome = found := by simpa using last
      subst same
      exact ⟨units, out, rfl⟩
    · exact (notAmong within).elim

/-- Of two sides with the same beginning, what was told of one begins with what was told of the
other. -/
theorem comparable {other : List (Message α)} {more : List Request} {worker otherWorker : Worker α}
    {state otherState : σ} (account : Account reference first told made worker state)
    (again : Account reference first other more otherWorker otherState) :
    told <+: other ∨ other <+: told := by
  rcases again.tells with
    ⟨number, units, _, last, goesAgain, startsAgain, _⟩ | ⟨units, _, out, same⟩
  · rcases account.tells with ⟨count, early, _, _, goes, starts, _⟩ | ⟨early, _, out, same⟩
    · rcases Nat.le_total count number with fewer | fewer
      · exact List.prefix_or_prefix_of_prefix
          (starts.trans ((goes.shorter goesAgain fewer).1.map _)) startsAgain
      · exact List.prefix_or_prefix_of_prefix starts
          (startsAgain.trans ((goesAgain.shorter goes fewer).1.map _))
    · right
      have within := startsAgain.trans ((out.covers goesAgain).1.map Message.item)
      rcases same with rfl | rfl
      · exact within
      · exact within.trans (List.prefix_append _ _)
  · have whole : other <+: units.map .item ++ [.last _] := (again.prefix_of_comesOut out).1
    exact List.prefix_or_prefix_of_prefix (account.prefix_of_comesOut out).1 whole

end Account

/-! ## Runs -/

section Runs

variable {source reference : Source σ α} {kept : σ → Prop} {sources : List σ}
  {first state : State σ α} {passages : List (Passage α)} {sent : Nat → List Request}

/-- In every run each side has an account: it does what a source does that is read alone. -/
theorem Sends.account (follows : source.Follows reference kept) (fresh : Fresh sources first)
    (begins : ∀ begin ∈ sources, kept begin) (sends : Sends source first sent passages state)
    {index : Nat} {begin : σ} {side : Side σ α} (there : sources[index]? = some begin)
    (found : state.sides[index]? = some side) :
    Account reference begin (messagesOf index (arrived passages)) (sent index) side.worker
      side.source := by
  have keeps : kept begin := begins begin (List.mem_of_getElem? there)
  induction sends generalizing side with
  | start =>
      have same : begin = side.source := by
        rw [← fresh.sources_eq, List.getElem?_map, found] at there
        exact (Option.some.inj there).symm
      rw [(fresh.idle side (List.mem_of_getElem? found)).1, same]
      exact Account.waiting .nothing
  | @worker sent passages passage state next made moved earlier taken added inductionHypothesis =>
      obtain ⟨before, message, after, present, stepped, sides, _, put⟩ := exists_sideStep taken
      rw [arrived_snoc, messagesOf_append]
      rw [sides] at found
      rcases getElem?_set_cases present found with ⟨rfl, rfl⟩ | ⟨other, stays⟩
      · obtain ⟨more, requested, account⟩ :=
          (inductionHypothesis present).step follows keeps stepped
        -- What the run remembers of this step are the requests of the account.
        have same : made = more := List.append_cancel_left (added.symm.trans requested)
        rw [messagesOf_put_self put, Function.update_self, same]
        exact account
      · rw [messagesOf_put_of_ne other put, List.append_nil, Function.update_of_ne (Ne.symm other)]
        exact inductionHypothesis stays
  | @other sent passages passage state next earlier step inductionHypothesis =>
      obtain ⟨before, present, sameWorker, sameSource⟩ := step.side found
      rw [arrived_snoc, step.spec.2.1, Option.toList_none, List.append_nil, sameWorker, sameSource]
      exact inductionHypothesis present

theorem Sends.received_starts (fresh : Fresh sources first)
    (sends : Sends source first sent passages state) (index : Nat) :
    messagesOf index (received passages) <+: messagesOf index (arrived passages) := by
  rw [sends.run.messagesOf_arrived fresh]
  exact List.prefix_append _ _

theorem delivered_of_messages {index : Nat} {units : List α} {outcome : Outcome}
    (all : messagesOf index (received passages) = units.map .item ++ [.last outcome]) :
    delivered index passages = units := by
  rw [delivered, all, Source.items_of_whole]

theorem Sends.exists_account (follows : source.Follows reference kept) (fresh : Fresh sources first)
    (begins : ∀ begin ∈ sources, kept begin) (sends : Sends source first sent passages state)
    {index : Nat} {begin : σ} (there : sources[index]? = some begin) :
    ∃ worker left,
      Account reference begin (messagesOf index (arrived passages)) (sent index) worker left := by
  have here : index < state.sides.length := by
    rw [sends.run.length_sides, fresh.length_sides]
    exact (List.getElem?_eq_some_iff.mp there).1
  exact ⟨_, _, sends.account follows fresh begins there (List.getElem?_eq_getElem here)⟩

/-- Where the source of a side comes out when it is read alone, the first of its units are delivered
and the first of its requests are made, and no other outcome is told. -/
theorem Sends.of_comesOut (follows : source.Follows reference kept) (fresh : Fresh sources first)
    (begins : ∀ begin ∈ sources, kept begin) (sends : Sends source first sent passages state)
    {index : Nat} {begin : σ} (there : sources[index]? = some begin) {units : List α}
    {all : List Request} {outcome : Outcome}
    (out : reference.ComesOut begin units all outcome) :
    delivered index passages <+: units ∧ sent index <+: all ∧
      ∀ other, .last other ∈ messagesOf index (received passages) → other = outcome := by
  obtain ⟨_, _, account⟩ := sends.exists_account follows fresh begins there
  obtain ⟨told, requested⟩ := account.prefix_of_comesOut out
  have starts := (sends.received_starts fresh index).trans told
  refine ⟨?_, requested, fun other seen => ?_⟩
  · have items := starts.filterMap Message.item?
    rwa [Source.items_of_whole] at items
  · simpa using starts.subset seen

/-- When the merged sequence is exhausted, the source of every side came out with what was delivered
of the side, and with its requests. -/
theorem Sends.comesOut_of_exhausted (follows : source.Follows reference kept)
    (fresh : Fresh sources first) (begins : ∀ begin ∈ sources, kept begin)
    (sends : Sends source first sent passages state)
    (ends : state.consumer = .finished (some .exhausted)) {index : Nat} {begin : σ}
    (there : sources[index]? = some begin) :
    reference.ComesOut begin (delivered index passages) (sent index) .exhausted := by
  have within : index < sources.length := (List.getElem?_eq_some_iff.mp there).1
  obtain ⟨worker, state, account⟩ := sends.exists_account follows fresh begins there
  have last := mem_messagesOf_iff.mpr (sends.run.received_of_exhausted fresh ends within)
  obtain ⟨units, out, all⟩ := account.whole_of_last (sends.received_starts fresh index) last
  rwa [delivered_of_messages all]

/-- In two runs with the same sources, what the consumer has received of a side in one of them
begins with what it has received of the side in the other. -/
theorem Sends.comparable {source other reference : Source σ α}
    {first otherFirst otherState : State σ α}
    {others : List (Passage α)} {otherSent : Nat → List Request}
    (follows : source.Follows reference kept) (otherFollows : other.Follows reference kept)
    (begins : ∀ begin ∈ sources, kept begin)
    (fresh : Fresh sources first) (otherFresh : Fresh sources otherFirst)
    (sends : Sends source first sent passages state)
    (otherSends : Sends other otherFirst otherSent others otherState) {index : Nat} {begin : σ}
    (there : sources[index]? = some begin) :
    messagesOf index (received passages) <+: messagesOf index (received others) ∨
      messagesOf index (received others) <+: messagesOf index (received passages) := by
  obtain ⟨_, _, account⟩ := sends.exists_account follows fresh begins there
  obtain ⟨_, _, otherAccount⟩ := otherSends.exists_account otherFollows otherFresh begins there
  have starts := sends.received_starts fresh index
  have otherStarts := otherSends.received_starts otherFresh index
  rcases account.comparable otherAccount with within | within
  · exact List.prefix_or_prefix_of_prefix (starts.trans within) otherStarts
  · exact List.prefix_or_prefix_of_prefix starts (otherStarts.trans within)

/-- In two runs with the same sources whose merged sequences are exhausted, the same was delivered
of each side. -/
theorem Sends.delivered_eq {source other reference : Source σ α}
    {first otherFirst otherState : State σ α}
    {others : List (Passage α)} {otherSent : Nat → List Request}
    (follows : source.Follows reference kept) (otherFollows : other.Follows reference kept)
    (begins : ∀ begin ∈ sources, kept begin)
    (fresh : Fresh sources first) (otherFresh : Fresh sources otherFirst)
    (sends : Sends source first sent passages state)
    (otherSends : Sends other otherFirst otherSent others otherState)
    (ends : state.consumer = .finished (some .exhausted))
    (otherEnds : otherState.consumer = .finished (some .exhausted)) {index : Nat} {begin : σ}
    (there : sources[index]? = some begin) :
    delivered index passages = delivered index others :=
  ((sends.comesOut_of_exhausted follows fresh begins ends there).unique
    (otherSends.comesOut_of_exhausted otherFollows otherFresh begins otherEnds there)).1

end Runs

end LedgerBook.Merge
