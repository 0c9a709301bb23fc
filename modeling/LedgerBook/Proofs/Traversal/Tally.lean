import LedgerBook.Proofs.Traversal.Consumer
/-!
What a walk counts and tells. Its counts are those of the pages that were fetched for it and of the
units that were handed out, whenever the consumer has control, and its events follow from them: the
start, the progress at some pages, and the conclusion to which the walk has come, if to any.
-/
namespace LedgerBook

open ReadM Paging

variable {α : Type} {client : Client} {start log : Log} {query : Query}
  {view : Page → Except Failure (List α)} {stream : Json}

/-! ## What replies say of a walk -/

/-- Whether the walk was asked before it was closed, if either. -/
def askedFirst (replies : List (Reply α)) : Option Bool :=
  replies.findSome? fun
    | .told _ => some true
    | .closed => some false
    | _ => none

instance (reply : Reply α) : Decidable reply.IsLast :=
  match reply with
  | .told .ended | .told (.failed _) | .closed => isTrue trivial
  | .told .working | .told (.item _) | .begun | .refused _ => isFalse id

/-- The first reply after which nothing follows: the end of the walk, its failure, or that it was
closed early. -/
def conclusion (replies : List (Reply α)) : Option (Reply α) :=
  replies.find? fun reply => decide reply.IsLast

theorem askedFirst_snoc (replies : List (Reply α)) (reply : Reply α) :
    askedFirst (replies ++ [reply]) = (askedFirst replies).or (askedFirst [reply]) :=
  List.findSome?_append

theorem conclusion_snoc (replies : List (Reply α)) (reply : Reply α) :
    conclusion (replies ++ [reply]) = (conclusion replies).or (conclusion [reply]) :=
  List.find?_append

namespace Traversal

/-! ## Events -/

def startTold (stream name : Json) : Event :=
  .note .info "traversal.start" stream (details name [])

/-- What is told at the page of some index, with its number of units and that of the units of all
pages before it: progress, if the page is the first or its ordinal a multiple of 25. -/
def pageTold (stream name : Json) (index count before : Nat) : List Event :=
  if index + 1 = 1 ∨ 25 ∣ index + 1 then
    [.note .debug "traversal.progress" stream
      (details name [("page", index), ("page_units", count), ("units", before)])]
  else []

def progressTold (stream name : Json) (batches : List (List α)) : List Event :=
  batches.zipIdx.flatMap fun batch =>
    pageTold stream name batch.2 batch.1.length (batches.take batch.2).flatten.length

/-- What is told of the conclusion of a walk that has followed some pages and handed out some
units. A page that fails is the one after those that were followed. -/
def conclusionTold (stream name : Json) (pages handed : Nat) : Option (Reply α) → List Event
  | some (.told .ended) =>
    [.counting "traversal.units" (.int handed) stream (details name []),
      .note .info "traversal.done" stream (details name [("pages", pages), ("units", handed)])]
  | some (.told (.failed failure)) =>
    [.note .error "traversal.failed" stream
      (details name [("page", pages), ("units", handed)]
        ++ ([("error", .failed failure)] : Details))]
  | _ => []

/-- All that a walk tells. -/
def toldInAll (stream name : Json) (polled : Option Bool) (batches : List (List α)) (handed : Nat)
    (last : Option (Reply α)) : List Event :=
  (if polled = some true then [startTold stream name] else []) ++
    progressTold stream name batches ++ conclusionTold stream name batches.length handed last

section Told

variable {name : Json}

theorem tellsProgress_iff (pages : Nat) : tellsProgress pages = true ↔ pages = 1 ∨ 25 ∣ pages := by
  simp [tellsProgress, progressInterval, Nat.dvd_iff_mod_eq_zero]

theorem progressTold_snoc (batches : List (List α)) (units : List α) :
    progressTold stream name (batches ++ [units]) =
      progressTold stream name batches ++
        pageTold stream name batches.length units.length batches.flatten.length := by
  have earlier : ∀ batch ∈ batches.zipIdx,
      (batches ++ [units]).take batch.2 = batches.take batch.2 := by
    intro batch inside
    apply List.take_append_of_le_length
    have bound := (List.mem_zipIdx inside).2.1
    omega
  unfold progressTold
  rw [List.zipIdx_append, List.flatMap_append]
  congr 1
  · apply List.flatMap_congr
    intro batch inside
    rw [earlier batch inside]
  · simp

theorem toldInAll_snoc (polled : Option Bool) (batches : List (List α)) (units : List α)
    (handed later : Nat) :
    toldInAll stream name polled (batches ++ [units]) later none =
      toldInAll stream name polled batches handed none ++
        pageTold stream name batches.length units.length batches.flatten.length := by
  simp only [toldInAll, progressTold_snoc, conclusionTold, List.append_nil, List.append_assoc]

theorem toldInAll_concluded (polled : Option Bool) (batches : List (List α)) (handed : Nat)
    (last : Option (Reply α)) :
    toldInAll stream name polled batches handed last =
      toldInAll stream name polled batches handed none ++
        conclusionTold stream name batches.length handed last := by
  simp only [toldInAll, conclusionTold, List.append_nil]

end Told

/-! ## Steps with their events -/

/-- Progress is told at the page whose index is the number of the pages before it. -/
theorem run_tellProgress (walk : Traversal α) (name : Json) (count : Nat) :
    tellProgress walk name walk.pages count client log =
      .ok () { log with
        events := log.events ++ pageTold walk.stream name walk.pages count walk.handed } := by
  by_cases tells : tellsProgress (walk.pages + 1) = true
  · have due := (tellsProgress_iff (walk.pages + 1)).mp tells
    rw [tellProgress, if_pos tells, pageTold, if_pos due]
    rfl
  · have undue := fun due => tells ((tellsProgress_iff (walk.pages + 1)).mpr due)
    rw [tellProgress, if_neg tells, pageTold, if_neg undue, List.append_nil]
    rfl

theorem run_step_of_end (walk : Traversal α) {name : Json}
    (phase : walk.phase = .reading name [] none) :
    walk.step client log =
      .ok (.ended, walk.close)
        ⟨log.requests, log.events ++ conclusionTold walk.stream name walk.pages walk.handed
          (some (.told .ended : Reply α))⟩ := by
  rw [step, phase, conclusionTold, List.append_cons]
  rfl

section Pages

variable (walk : Traversal α) {name : Json} {next : Query} {requests : List Request}

theorem run_step_of_failing_page {failure : Failure}
    (phase : walk.phase = .reading name [] (some ⟨next, walk.pages⟩))
    (visits : outcome (visit walk.units ⟨next, walk.pages⟩) client log =
      (.error failure, requests)) :
    walk.step client log =
      .ok (.failed failure, walk.close)
        ⟨requests, log.events ++ conclusionTold walk.stream name walk.pages walk.handed
          (some (.told (.failed failure) : Reply α))⟩ := by
  rw [step_of_page walk phase, turnPage_eq, run_bind_of_ok (run_attempt_of_quiet _), visits]
  rfl

/-- A walk takes the page after those that it has followed, and tells progress if it is due. -/
theorem run_step_of_page {units : List α} {following : Option Position}
    (phase : walk.phase = .reading name [] (some ⟨next, walk.pages⟩))
    (visits : outcome (visit walk.units ⟨next, walk.pages⟩) client log =
      (.ok (units, following), requests)) :
    walk.step client log =
      .ok (.working,
          { walk with phase := .reading name units following, pages := walk.pages + 1 })
        ⟨requests, log.events ++
          pageTold walk.stream name walk.pages units.length walk.handed⟩ := by
  rw [step_of_page walk phase, turnPage_eq, run_bind_of_ok (run_attempt_of_quiet _), visits]
  simp only [turned]
  rw [run_bind_of_ok (run_tellProgress walk name units.length)]
  rfl

end Pages

/-! ## What a walk has counted -/

/-- How the fetching of pages stands at the conclusion of a walk, or while there is none. -/
def Concludes (ending : Ending) (all items : List α) : Option (Reply α) → Prop
  | some (.told progress) => ending.Shows all items progress
  | _ => ∃ next, ending = .towards next

/-- The counts of a walk over a query that has handed out some units, and its events, with the pages
that were fetched for it since a start, decoded and followed. -/
structure Tally (client : Client) (start : Log) (query : Query)
    (view : Page → Except Failure (List α)) (stream : Json) (walk : Traversal α) (items : List α)
    (polled : Option Bool) (last : Option (Reply α)) (log : Log) (batches : List (List α))
    (ending : Ending) : Prop where
  fetches : Fetches client view (some ⟨query, 0⟩) start.requests batches ending log.requests
  concludes : Concludes ending batches.flatten items last
  pages : walk.pages = batches.length
  handed : walk.handed = items.length
  inOrder : items <+: batches.flatten
  /-- No page is fetched before all units of the pages before it are handed out. -/
  upToLast : batches.dropLast.flatten <+: items
  events : log.events =
    start.events ++ toldInAll stream query.nameJson polled batches items.length last

namespace Tally

variable {walk : Traversal α} {items : List α} {polled : Option Bool} {batches : List (List α)}
  {ending final : Ending} {requests : List Request}

/-- A walk that comes to a conclusion keeps its counts and tells the conclusion. -/
theorem concluded
    (tally : Tally client start query view stream walk items polled none log batches ending)
    (last : Reply α)
    (fetches : Fetches client view (some ⟨query, 0⟩) start.requests batches final requests)
    (concludes : Concludes final batches.flatten items (some last)) :
    Tally client start query view stream walk.close items polled (some last)
      ⟨requests, log.events ++
        conclusionTold stream query.nameJson batches.length items.length (some last)⟩
      batches final := by
  refine ⟨fetches, concludes, tally.pages, tally.handed, tally.inOrder, tally.upToLast, ?_⟩
  rw [tally.events, toldInAll_concluded polled batches items.length (some last),
    List.append_assoc]

/-- One more unit is handed out. -/
theorem unit {unit : α} {rest : List α} {next : Option Position}
    (tally : Tally client start query view stream walk items polled none log batches ending)
    (more : batches.flatten = items ++ [unit] ++ rest) :
    Tally client start query view stream
      { walk with phase := .reading query.nameJson rest next, handed := walk.handed + 1 }
      (items ++ [unit]) polled none log batches ending := by
  have counts : walk.handed + 1 = (items ++ [unit]).length := by
    rw [List.length_append, tally.handed]
    rfl
  exact ⟨tally.fetches, tally.concludes, tally.pages, counts, more ▸ List.prefix_append _ _,
    tally.upToLast.trans (List.prefix_append _ _), tally.events⟩

/-- One more page is fetched once all units of the pages before it are handed out. -/
theorem page {units : List α} {position : Position} {next : Option Position}
    (tally : Tally client start query view stream walk batches.flatten polled none log batches
      (.paused position))
    (visits : outcome (visit view position) client (asked log.requests) =
      (.ok (units, next), requests)) :
    Tally client start query view stream
      { walk with phase := .reading query.nameJson units next, pages := walk.pages + 1 }
      batches.flatten polled none
      ⟨requests, log.events ++
        pageTold stream query.nameJson batches.length units.length batches.flatten.length⟩
      (batches ++ [units]) (.towards next) := by
  have fetches : Fetches client view (some ⟨query, 0⟩) start.requests (batches ++ [units])
      (.towards next) requests := tally.fetches.snoc visits
  have inOrder : batches.flatten <+: (batches ++ [units]).flatten := by
    rw [List.flatten_append]
    exact List.prefix_append _ _
  have upToLast : (batches ++ [units]).dropLast.flatten <+: batches.flatten := by
    simp only [List.dropLast_concat, List.prefix_rfl]
  have pages : walk.pages + 1 = (batches ++ [units]).length := by
    rw [List.length_append, tally.pages]
    rfl
  refine ⟨fetches, ⟨next, rfl⟩, pages, tally.handed, inOrder, upToLast, ?_⟩
  rw [toldInAll_snoc polled batches units batches.flatten.length, tally.events, List.append_assoc]

end Tally

/-- A walk over a query that has followed some pages, handed out some units, and holds others. -/
abbrev underway (query : Query) (view : Page → Except Failure (List α)) (stream : Json)
    (units : List α) (next : Option Position) (pages handed : Nat) : Traversal α :=
  ⟨pure query, view, stream, .reading query.nameJson units next, pages, handed⟩

/-- A walk over a query that nobody has asked, that holds what is left of the last page fetched, or
that has come to a conclusion. -/
inductive Counted (client : Client) (start : Log) (query : Query)
    (view : Page → Except Failure (List α)) (stream : Json) :
    Traversal α → List α → Option Bool → Option (Reply α) → Log → Prop
  | fresh :
      Counted client start query view stream (.new (pure query) view stream) [] none none start
  | reading {batches : List (List α)} {items units : List α} {next : Option Position}
      {pages handed : Nat} {log : Log} :
      batches.flatten = items ++ units →
      Tally client start query view stream (underway query view stream units next pages handed)
        items (some true) none log batches (.towards next) →
      Counted client start query view stream (underway query view stream units next pages handed)
        items (some true) none log
  | finished {walk : Traversal α} {items : List α} {polled : Bool} {last : Reply α} {log : Log}
      {batches : List (List α)} {ending : Ending} :
      walk.phase = .finished →
      Tally client start query view stream walk items (some polled) (some last) log batches ending →
      Counted client start query view stream walk items (some polled) (some last) log

namespace Counted

variable {walk : Traversal α} {items : List α} {polled : Option Bool} {last : Option (Reply α)}

theorem isOver {last : Reply α}
    (counted : Counted client start query view stream walk items polled (some last) log) :
    walk.IsOver := by
  cases counted with
  | finished phase _ => exact .inl phase

theorem same (counted : Counted client start query view stream walk items polled last log) :
    Counted client start query view stream walk (items ++ []) polled last log :=
  (List.append_nil items).symm ▸ counted

/-- A walk that takes the next page goes on with it, or it has come to its failure. -/
theorem step_of_page {batches : List (List α)} {position : Position}
    (tally : Tally client start query view stream
      (underway query view stream [] (some position) batches.length batches.flatten.length)
      batches.flatten (some true) none log batches (.paused position)) :
    ∃ answer later after,
      (underway query view stream [] (some position) batches.length batches.flatten.length).step
        client log = .ok (answer, later) after ∧
      Counted client start query view stream later (batches.flatten ++ handedOut [.told answer])
        (some true) (conclusion [.told answer]) after := by
  obtain ⟨next, index⟩ := position
  obtain rfl : index = batches.length := tally.fetches.index_eq.trans (Nat.zero_add _)
  rcases visits : outcome (visit view ⟨next, batches.length⟩) client log with
    ⟨failure | ⟨units, following⟩, requests⟩
  · have steps := run_step_of_failing_page (underway query view stream []
      (some ⟨next, batches.length⟩) batches.length batches.flatten.length) rfl visits
    rw [outcome_asked] at visits
    have fails := tally.fetches.trans (.failed visits)
    rw [List.append_nil] at fails
    have failed := tally.concluded (.told (.failed failure)) fails ⟨rfl, rfl⟩
    exact ⟨_, _, _, steps, (Counted.finished rfl failed).same⟩
  · have steps := run_step_of_page (underway query view stream []
      (some ⟨next, batches.length⟩) batches.length batches.flatten.length) rfl visits
    rw [outcome_asked] at visits
    have parts : (batches ++ [units]).flatten = batches.flatten ++ units := by
      rw [List.flatten_append, List.flatten_singleton]
    exact ⟨_, _, _, steps, (Counted.reading parts (tally.page visits)).same⟩

/-- One step of a walk. -/
theorem step (counted : Counted client start query view stream walk items polled last log) :
    ∃ answer later after, walk.step client log = .ok (answer, later) after ∧
      Counted client start query view stream later (items ++ handedOut [.told answer])
        (polled.or (some true)) (last.or (conclusion [.told answer])) after := by
  cases counted with
  | fresh =>
      have tally : Tally client start query view stream
          (underway query view stream [] (some ⟨query, 0⟩) 0 0) [] (some true) none
          ⟨start.requests, start.events ++ [startTold stream query.nameJson]⟩ []
          (.towards (some ⟨query, 0⟩)) :=
        ⟨.paused, ⟨_, rfl⟩, rfl, rfl, List.prefix_rfl, List.prefix_rfl, rfl⟩
      exact ⟨.working, _, _, rfl, .reading rfl tally⟩
  | @reading batches items units next pages handed log parts tally =>
      cases units with
      | cons unit rest =>
          have more : batches.flatten = items ++ [unit] ++ rest := by
            rw [parts, List.append_assoc]
            rfl
          exact ⟨.item unit, _, log, rfl, .reading more (tally.unit more)⟩
      | nil =>
          obtain rfl : batches.flatten = items := by rw [parts, List.append_nil]
          obtain rfl : pages = batches.length := tally.pages
          obtain rfl : handed = batches.flatten.length := tally.handed
          cases next with
          | none =>
              have ended := tally.concluded (.told .ended) tally.fetches ⟨rfl, rfl⟩
              exact ⟨.ended, _, _, run_step_of_end _ rfl, (Counted.finished rfl ended).same⟩
          | some position => exact step_of_page tally
  | finished phase tally =>
      refine ⟨.ended, walk, log, ?_, (Counted.finished phase tally).same⟩
      rw [step_of_finished walk phase]
      rfl

/-- What is done after a step on the way to an answer, however many steps more are allowed. -/
theorem resume (settled : polled.or (some true) = polled) (limit : Nat) {answer : Progress α}
    (counted : Counted client start query view stream walk (items ++ handedOut [.told answer])
      polled (last.or (conclusion [.told answer])) log) :
    ∃ final later after, resumed limit (answer, walk) client log = .ok (final, later) after ∧
      Counted client start query view stream later (items ++ handedOut [.told final]) polled
        (last.or (conclusion [.told final])) after := by
  induction limit generalizing walk log answer with
  | zero => cases answer <;> exact ⟨_, _, _, rfl, counted⟩
  | succ limit inductionHypothesis =>
      cases answer with
      | working =>
          have before : Counted client start query view stream walk items polled last log := by
            have nothing : handedOut [(.told .working : Reply α)] = [] := rfl
            have ongoing : conclusion [(.told .working : Reply α)] = none := rfl
            rwa [nothing, ongoing, List.append_nil, Option.or_none] at counted
          obtain ⟨answer, later, after, steps, counted⟩ := before.step
          rw [settled] at counted
          rw [resumed, poll_succ, run_bind_of_ok steps]
          exact inductionHypothesis counted
      | item unit => exact ⟨_, _, _, rfl, counted⟩
      | ended => exact ⟨_, _, _, rfl, counted⟩
      | failed failure => exact ⟨_, _, _, rfl, counted⟩

theorem poll (counted : Counted client start query view stream walk items polled last log)
    (more : Nat) :
    ∃ answer later after, walk.poll (more + 1) client log = .ok (answer, later) after ∧
      Counted client start query view stream later (items ++ handedOut [.told answer])
        (polled.or (some true)) (last.or (conclusion [.told answer])) after := by
  obtain ⟨answer, later, after, steps, counted⟩ := counted.step
  have settled : (polled.or (some true)).or (some true) = polled.or (some true) := by
    rw [Option.or_assoc, Option.or_self]
  rw [poll_succ, run_bind_of_ok steps]
  exact counted.resume settled more

theorem close (counted : Counted client start query view stream walk items polled last log) :
    Counted client start query view stream walk.close items (polled.or (some false))
      (last.or (some .closed)) log := by
  cases counted with
  | fresh =>
      apply Counted.finished rfl
      exact ⟨.paused, ⟨some _, rfl⟩, rfl, rfl, List.prefix_rfl, List.prefix_rfl,
        (List.append_nil _).symm⟩
  | @reading batches items units next pages handed log parts tally =>
      have closed := tally.concluded .closed tally.fetches ⟨next, rfl⟩
      have silent : log.events ++ conclusionTold stream query.nameJson batches.length items.length
          (some .closed : Option (Reply α)) = log.events := List.append_nil _
      rw [silent] at closed
      exact .finished rfl closed
  | finished phase tally =>
      apply Counted.finished rfl
      exact ⟨tally.fetches, tally.concludes, tally.pages, tally.handed, tally.inOrder,
        tally.upToLast, tally.events⟩

end Counted

end Traversal

/-! ## Runs of a consumer -/

namespace SinglePass

open Traversal

variable {handle : Handle} {pass : SinglePass α} {earlier : List (Reply α)}

/-- What is known of the counts and events of a walk, given the replies so far. -/
structure Kept (client : Client) (start : Log) (query : Query)
    (view : Page → Except Failure (List α)) (stream : Json) (replies : List (Reply α))
    (pass : SinglePass α) (log : Log) : Prop where
  counted : Counted client start query view stream pass.walk (handedOut replies)
    (askedFirst replies) (conclusion replies) log
  failed : ∀ failure, .told (.failed failure) ∈ replies →
    conclusion replies = some (.told (.failed failure))

theorem act_counted {items : List α} {polled : Option Bool} {last : Option (Reply α)}
    (counted : Counted client start query view stream pass.walk items polled last log)
    (next : Act) :
    ∃ reply later after, pass.act handle next client log = .ok (reply, later) after ∧
      Counted client start query view stream later.walk (items ++ handedOut [reply])
        (polled.or (askedFirst [reply])) (last.or (conclusion [reply])) after := by
  cases next with
  | iterate =>
      have unchanged : Counted client start query view stream pass.walk (items ++ [])
          (polled.or none) (last.or none) log := by
        rw [Option.or_none, Option.or_none]
        exact counted.same
      obtain ⟨walk, iterated⟩ := pass
      match handle, iterated with
      | .walk, true => exact ⟨.refused .alreadyIterated, _, _, rfl, unchanged⟩
      | .walk, false => exact ⟨.begun, _, _, rfl, unchanged⟩
      | .iterator, _ => exact ⟨.begun, _, _, rfl, unchanged⟩
  | ask more =>
      obtain ⟨answer, later, after, polls, counted⟩ := counted.poll more
      refine ⟨.told answer, { pass with walk := later }, after, ?_, counted⟩
      rw [act, run_bind_of_ok polls]
      rfl
  | close => exact ⟨.closed, _, _, rfl, counted.close.same⟩

namespace Kept

theorem act (kept : Kept client start query view stream earlier pass log) (next : Act) :
    ∃ reply later after, pass.act handle next client log = .ok (reply, later) after ∧
      Kept client start query view stream (earlier ++ [reply]) later after := by
  obtain ⟨reply, later, after, acts, counted⟩ := act_counted kept.counted next
  refine ⟨reply, later, after, acts, ?_, ?_⟩
  · rw [handedOut_snoc, askedFirst_snoc, conclusion_snoc]
    exact counted
  · intro failure inside
    rw [conclusion_snoc]
    rcases List.mem_append.mp inside with before | now
    · rw [kept.failed failure before]
      rfl
    · obtain rfl := List.mem_singleton.mp now
      cases concluded : conclusion earlier with
      | none => rfl
      | some last =>
          -- A walk that has come to a conclusion answers that it has ended.
          have counted := kept.counted
          rw [concluded] at counted
          obtain ⟨_, _, found, -, onlyEnds⟩ := outcome_act_of_isOver counted.isOver next
          cases congrArg Prod.fst (found.symm.trans (run_eq_ok.mp acts).1)
          cases onlyEnds _ rfl

theorem acts (list : List Act) (kept : Kept client start query view stream earlier pass log) :
    ∃ replies later after, SinglePass.acts handle list pass client log = .ok (replies, later) after ∧
      Kept client start query view stream (earlier ++ replies) later after := by
  induction list generalizing earlier pass log with
  | nil => exact ⟨[], pass, log, rfl, (List.append_nil earlier).symm ▸ kept⟩
  | cons next others inductionHypothesis =>
      obtain ⟨reply, between, middle, acted, keptNext⟩ := kept.act next
      obtain ⟨replies, later, after, rest, keptAfter⟩ := inductionHypothesis keptNext
      refine ⟨reply :: replies, later, after, ?_, ?_⟩
      · rw [SinglePass.acts, run_bind_of_ok acted]
        simp only
        rw [run_bind_of_ok rest]
        rfl
      · rwa [List.append_assoc] at keptAfter

end Kept

end SinglePass

end LedgerBook
