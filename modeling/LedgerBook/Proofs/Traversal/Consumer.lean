import LedgerBook.Proofs.Paging.Units
import LedgerBook.Proofs.Telling
/-!
What a consumer does with a walk, act by act. Where the walk stands is known by the pages that were
fetched for it: it holds what is left of the last of them, and fetches no other before that is used
up.
-/
namespace LedgerBook

open ReadM Paging

variable {α : Type} {client : Client} {start log : Log} {opening : ReadM Query}
  {view : Page → Except Failure (List α)} {stream : Json}

/-! ## The acts of a consumer -/

/-- What a read gives to its consumer: a walk, which can be iterated once, or the iterator over a
walk, which iterates as itself however often. -/
inductive Handle
  | walk
  | iterator

/-- What a consumer may do with a walk. It is asked with one step and as many more as it may
take. -/
inductive Act
  | iterate
  | ask (more : Nat)
  | close

def Act.Asks : Act → Prop
  | .ask _ => True
  | _ => False

/-- What an act comes to. -/
inductive Reply (α : Type)
  | begun
  | refused (failure : Failure)
  | told (progress : Progress α)
  | closed

/-- Whether nothing follows: the walk has ended or failed, or it was closed. -/
def Reply.IsLast : Reply α → Prop
  | .told .ended => True
  | .told (.failed _) => True
  | .closed => True
  | _ => False

/-- The units among some replies. -/
def handedOut (replies : List (Reply α)) : List α :=
  replies.filterMap fun
    | .told (.item unit) => some unit
    | _ => none

namespace SinglePass

/-- What iterating comes to. -/
def begin (handle : Handle) (pass : SinglePass α) : Reply α × SinglePass α :=
  match handle with
  | .iterator => (.begun, pass)
  | .walk =>
    match pass.iterate with
    | .error failure => (.refused failure, pass)
    | .ok begun => (.begun, begun)

/-- One act of a consumer. The iterator that a read gives is asked at once; a walk of its own is
iterated first. -/
def act (handle : Handle) (pass : SinglePass α) : Act → ReadM (Reply α × SinglePass α)
  | .iterate => return pass.begin handle
  | .ask more => do
    let (progress, walk) ← pass.walk.poll (more + 1)
    return (.told progress, { pass with walk })
  | .close => return (.closed, { pass with walk := pass.walk.close })

/-- Some acts of a consumer, one after the other. -/
def acts (handle : Handle) : List Act → SinglePass α → ReadM (List (Reply α) × SinglePass α)
  | [], pass => return ([], pass)
  | next :: others, pass => do
    let (reply, pass) ← pass.act handle next
    let (replies, pass) ← acts handle others pass
    return (reply :: replies, pass)

end SinglePass

namespace Traversal

/-! ## Where a walk stands -/

/-- Where a walk stands that has handed out some units, with all requests made by then: nobody has
asked yet, its query is found, some pages are fetched of the last of which it holds what is left, or
it is over. -/
inductive Standing (client : Client) (start : Log) (opening : ReadM Query)
    (view : Page → Except Failure (List α)) (stream : Json) :
    Traversal α → List α → List Request → Prop
  | fresh : Standing client start opening view stream (.new opening view stream) [] start.requests
  | opened {query : Query} {name : Json} {pages handed : Nat} {requests : List Request} :
      outcome opening client start = (.ok query, requests) →
      Standing client start opening view stream
        ⟨opening, view, stream, .reading name [] (some ⟨query, 0⟩), pages, handed⟩ [] requests
  | reading {query : Query} {name : Json} {pages handed : Nat} {found requests : List Request}
      {older : List (List α)} {used units : List α} {next : Option Position} :
      outcome opening client start = (.ok query, found) →
      Fetches client view (some ⟨query, 0⟩) found (older ++ [used ++ units]) (.towards next)
        requests →
      Standing client start opening view stream
        ⟨opening, view, stream, .reading name units next, pages, handed⟩ (older.flatten ++ used)
        requests
  | finished {walk : Traversal α} {items : List α} {requests : List Request} :
      walk.phase = .finished → Standing client start opening view stream walk items requests

/-- Whether a unit of a walk has some number and lies on the page of some number, both counted from
zero. -/
def HasUnit (client : Client) (start : Log) (walk : Traversal α) (number page : Nat) (unit : α) :
    Prop :=
  ∃ query found batches ending after, outcome walk.opening client start = (.ok query, found) ∧
    Fetches client walk.units (some ⟨query, 0⟩) found batches ending after ∧
    LiesOn batches number page unit

/-- The number of a unit tells the unit and its page. -/
theorem HasUnit.unique {walk : Traversal α} {number page otherPage : Nat} {unit other : α}
    (has : HasUnit client start walk number page unit)
    (again : HasUnit client start walk number otherPage other) :
    page = otherPage ∧ unit = other := by
  obtain ⟨query, found, batches, _, _, opens, fetches, lies⟩ := has
  obtain ⟨_, _, _, _, _, opensAgain, fetchesAgain, liesAgain⟩ := again
  cases opens.symm.trans opensAgain
  rcases fetches.prefix_or_prefix fetchesAgain with longer | longer
  · exact (lies.mono longer).unique liesAgain
  · exact lies.unique (liesAgain.mono longer)

/-- Whether the requests for pages that were made since the start are for the pages up to that of
the unit of some number. -/
def PaidFor (client : Client) (start : Log) (walk : Traversal α) (number : Nat) (unit : α)
    (requests : List Request) : Prop :=
  ∃ page, walk.HasUnit client start number page unit ∧
    pagesAsked requests = pagesAsked start.requests + (page + 1)

/-- Where a walk stands after an answer, if it has handed out some units before: a unit that it
hands out is the next one, and paid for. -/
def Answers (client : Client) (start : Log) (opening : ReadM Query)
    (view : Page → Except Failure (List α)) (stream : Json) (items : List α)
    (requests : List Request) : Progress α → Traversal α → Prop
  | .working, later => Standing client start opening view stream later items requests
  | .item unit, later =>
    Standing client start opening view stream later (items ++ [unit]) requests ∧
      (Traversal.new opening view stream).PaidFor client start items.length unit requests
  | .ended, later => later.phase = .finished
  | .failed _, later => later.phase = .finished

/-- A read that finds a first query and asks for no page, whatever was told before it. -/
structure Preliminary (opening : ReadM Query) : Prop where
  orderly : Orderly opening
  asksNoPage : ∀ client log, pagesAsked (outcome opening client log).2 = pagesAsked log.requests

/-- One step of a walk. -/
theorem Standing.step (preliminary : Preliminary opening) {walk : Traversal α} {items : List α}
    (standing : Standing client start opening view stream walk items log.requests) :
    ∃ answer later requests, outcome walk.step client log = (.ok (answer, later), requests) ∧
      Answers client start opening view stream items requests answer later := by
  generalize made : log.requests = requests at standing
  cases standing with
  | fresh =>
      have orderly := preliminary.orderly
      rw [step_of_fresh _ rfl, outcome_bind, outcome_attempt, follow_ok]
      change ∃ answer later requests, outcome (Traversal.opened (.new opening view stream)
        (outcome opening client log).1) client (asked (outcome opening client log).2) =
          (.ok (answer, later), requests) ∧ _
      rw [outcome_congr opening made]
      rcases found : outcome opening client start with ⟨failure | query, requests⟩
      · exact ⟨_, _, _, rfl, rfl⟩
      · exact ⟨_, _, _, rfl, .opened found⟩
  | @opened query name pages handed requests found =>
      rw [outcome_step_of_page _ rfl, outcome_asked, made]
      rcases visits : outcome (visit view ⟨query, 0⟩) client (asked requests) with
        ⟨failure | ⟨units, next⟩, after⟩
      · exact ⟨_, _, _, rfl, rfl⟩
      · have fetches : Fetches client view (some ⟨query, 0⟩) requests ([] ++ [[] ++ units])
            (.towards next) after := Fetches.paused.snoc visits
        exact ⟨_, _, _, rfl, .reading found fetches⟩
  | @reading query name pages handed found requests older used units next opens fetches =>
      cases units with
      | cons unit rest =>
          have kept : used ++ unit :: rest = used ++ [unit] ++ rest :=
            (List.append_assoc used [unit] rest).symm
          have items : older.flatten ++ used ++ [unit] = older.flatten ++ (used ++ [unit]) :=
            List.append_assoc _ _ _
          rw [step_of_unit _ rfl, outcome_pure, made]
          refine ⟨_, _, _, rfl, ?_, older.length, ?_, ?_⟩
          · rw [items]
            exact .reading opens (kept ▸ fetches)
          · exact ⟨query, found, _, _, _, opens, fetches, .of_last older used unit rest⟩
          · have asked := preliminary.asksNoPage client start
            rw [opens] at asked
            rw [fetches.pagesAsked_eq, asked, List.length_append]
            rfl
      | nil =>
          rw [List.append_nil] at fetches
          cases next with
          | none =>
              rw [outcome_step_of_end _ rfl]
              exact ⟨_, _, _, rfl, rfl⟩
          | some position =>
              rw [outcome_step_of_page _ rfl, outcome_asked, made]
              rcases visits : outcome (visit view position) client (asked requests) with
                ⟨failure | ⟨units, next⟩, after⟩
              · exact ⟨_, _, _, rfl, rfl⟩
              · have items : older.flatten ++ used = (older ++ [used]).flatten ++ [] := by
                  rw [List.flatten_append, List.append_nil]
                  simp
                rw [items]
                exact ⟨_, _, _, rfl, .reading opens (fetches.snoc visits)⟩
  | finished phase =>
      rw [step_of_finished walk phase]
      exact ⟨_, _, _, rfl, phase⟩

/-- What is done after a step on the way to an answer. -/
def resumed (limit : Nat) : Progress α × Traversal α → ReadM (Progress α × Traversal α)
  | (.working, walk) => poll limit walk
  | answer => return answer

theorem poll_succ (limit : Nat) (walk : Traversal α) :
    poll (limit + 1) walk = walk.step >>= resumed limit := by
  rw [poll]
  rfl

/-- So is a poll, however many steps it takes. -/
theorem Standing.poll (preliminary : Preliminary opening) (limit : Nat) {walk : Traversal α}
    {items : List α}
    (standing : Standing client start opening view stream walk items log.requests) :
    ∃ answer later requests,
      outcome (walk.poll limit) client log = (.ok (answer, later), requests) ∧
        Answers client start opening view stream items requests answer later := by
  induction limit generalizing walk log with
  | zero => exact ⟨.working, walk, log.requests, rfl, standing⟩
  | succ limit inductionHypothesis =>
      obtain ⟨answer, later, requests, steps, answers⟩ := standing.step preliminary
      obtain ⟨between, rfl, goesOn⟩ := exists_outcome_bind steps (resumed limit)
      rw [poll_succ, goesOn]
      cases answer with
      | working => exact inductionHypothesis answers
      | item unit => exact ⟨_, _, _, outcome_pure _, answers⟩
      | ended => exact ⟨_, _, _, outcome_pure _, answers⟩
      | failed failure => exact ⟨_, _, _, outcome_pure _, answers⟩

/-! ## Walks that are over -/

/-- Whether the next answer of a walk is that it has ended. -/
def IsOver (walk : Traversal α) : Prop :=
  walk.phase = .finished ∨ ∃ name, walk.phase = .reading name [] none

theorem IsOver.poll {walk : Traversal α} (isOver : walk.IsOver) (more : Nat) :
    ∃ later, outcome (walk.poll (more + 1)) client log = (.ok (.ended, later), log.requests) ∧
      later.phase = .finished := by
  rw [poll_succ]
  rcases isOver with phase | ⟨name, phase⟩
  · refine ⟨walk, ?_, phase⟩
    rw [step_of_finished walk phase, pure_bind]
    rfl
  · refine ⟨walk.close, ?_, rfl⟩
    have steps : outcome walk.step client log = (.ok (.ended, walk.close), log.requests) :=
      outcome_step_of_end walk phase
    obtain ⟨after, left, goesOn⟩ := exists_outcome_bind steps (resumed more)
    rw [goesOn, ← left]
    rfl

/-- Whether the last unit of the last page of a walk is the one before some number, where the last
page is the first one that has no page after it. -/
def AllTaken (client : Client) (start : Log) (walk : Traversal α) (number : Nat) : Prop :=
  ∃ query found older last after, outcome walk.opening client start = (.ok query, found) ∧
    Fetches client walk.units (some ⟨query, 0⟩) found (older ++ [last]) .complete after ∧
    last ≠ [] ∧ number = (older ++ [last]).flatten.length

theorem Standing.isOver {walk : Traversal α} {items : List α} {requests : List Request}
    (standing : Standing client start opening view stream walk items requests)
    (taken : (Traversal.new opening view stream).AllTaken client start items.length) :
    walk.IsOver := by
  obtain ⟨query, found, older, last, after, opens, whole, notEmpty, counted⟩ := taken
  have some_left : 0 < last.length := List.length_pos_iff.mpr notEmpty
  rw [List.flatten_append, List.length_append, List.flatten_singleton] at counted
  cases standing with
  | fresh =>
      rw [List.length_nil] at counted
      omega
  | opened =>
      rw [List.length_nil] at counted
      omega
  | finished phase => exact .inl phase
  | @reading _ name _ _ _ _ before used units next opensAgain fetches =>
      cases opens.symm.trans opensAgain
      obtain ⟨rest, parts, fetchesRest⟩ := fetches.exists_rest whole
      have lengths := congrArg (fun batches => batches.flatten.length) parts
      simp only [List.flatten_append, List.flatten_singleton, List.length_append] at lengths
      rw [List.length_append] at counted
      have used_up : units = [] := List.length_eq_zero_iff.mp (by omega)
      have nothing_left : rest.flatten.length = 0 := by omega
      cases next with
      | none => exact .inr ⟨name, by rw [used_up]⟩
      | some position =>
          -- A page that is still to come would be the last one, which has units.
          obtain ⟨front, back, rfl⟩ : ∃ front back, rest = front ++ [back] :=
            (List.eq_nil_or_concat' rest).resolve_left fetchesRest.ne_nil_of_complete
          rw [← List.append_assoc] at parts
          obtain ⟨-, same⟩ := List.append_inj' parts rfl
          cases same
          rw [List.flatten_append, List.length_append, List.flatten_singleton] at nothing_left
          omega

end Traversal

/-! ## Runs of a consumer -/

namespace SinglePass

/-- What is known of a consumer after its acts: where its walk stands, that the walk is over if one
of the replies was the last, and that a walk which was begun is iterated. -/
structure Consumed (handle : Handle) (client : Client) (start : Log) (opening : ReadM Query)
    (view : Page → Except Failure (List α)) (stream : Json) (replies : List (Reply α))
    (pass : SinglePass α) (requests : List Request) : Prop where
  stands : Traversal.Standing client start opening view stream pass.walk (handedOut replies)
    requests
  finished : (∃ reply ∈ replies, reply.IsLast) → pass.walk.phase = .finished
  begun : handle = .walk → .begun ∈ replies → pass.iterated = true

variable {handle : Handle} {pass : SinglePass α} {earlier : List (Reply α)}

theorem act_iterate_again (iterated : pass.iterated = true) :
    pass.act .walk .iterate = pure (.refused .alreadyIterated, pass) := by
  unfold act begin iterate
  rw [if_pos iterated]
  rfl

/-- The first time and any other time, iterating tells nothing of the walk, which is iterated from
then on unless it was its iterator that was iterated. -/
theorem outcome_act_iterate (handle : Handle) (pass : SinglePass α) (client : Client) (log : Log) :
    ∃ reply iterated, outcome (pass.act handle .iterate) client log =
        (.ok (reply, { pass with iterated }), log.requests) ∧
      (handle = .walk → iterated = true) ∧
      handedOut [reply] = [] ∧ ¬ reply.IsLast ∧ ∀ progress, reply ≠ .told progress := by
  obtain ⟨walk, iterated⟩ := pass
  match handle, iterated with
  | .iterator, iterated =>
      exact ⟨.begun, iterated, outcome_pure _, nofun, rfl, id, fun _ => nofun⟩
  | .walk, true =>
      exact ⟨.refused .alreadyIterated, true, outcome_pure _, fun _ => rfl, rfl, id, fun _ => nofun⟩
  | .walk, false => exact ⟨.begun, true, outcome_pure _, fun _ => rfl, rfl, id, fun _ => nofun⟩

theorem outcome_act_of_not_asks {next : Act} (silent : ¬ next.Asks) :
    ∃ result, outcome (pass.act handle next) client log = (.ok result, log.requests) := by
  cases next with
  | iterate => exact ⟨_, outcome_pure _⟩
  | ask more => exact absurd trivial silent
  | close => exact ⟨_, outcome_pure _⟩

theorem outcome_act_ask {more : Nat} {progress : Progress α} {walk : Traversal α}
    {requests : List Request}
    (polls : outcome (pass.walk.poll (more + 1)) client log = (.ok (progress, walk), requests)) :
    outcome (pass.act handle (.ask more)) client log =
      (.ok (.told progress, { pass with walk }), requests) := by
  obtain ⟨later, rfl, goesOn⟩ := exists_outcome_bind polls
    fun answer => pure (Reply.told answer.1, { pass with walk := answer.2 })
  exact goesOn

theorem handedOut_snoc (replies : List (Reply α)) (reply : Reply α) :
    handedOut (replies ++ [reply]) = handedOut replies ++ handedOut [reply] :=
  List.filterMap_append

namespace Consumed

variable (consumed : Consumed handle client start opening view stream earlier pass log.requests)

include consumed

theorem snoc {reply : Reply α} {later : SinglePass α} {requests : List Request}
    (stands : Traversal.Standing client start opening view stream later.walk
      (handedOut earlier ++ handedOut [reply]) requests)
    (finished : reply.IsLast ∨ pass.walk.phase = .finished → later.walk.phase = .finished)
    (begun : handle = .walk → reply = .begun ∨ pass.iterated = true → later.iterated = true) :
    Consumed handle client start opening view stream (earlier ++ [reply]) later requests := by
  constructor
  case stands => rwa [handedOut_snoc]
  case finished =>
    rintro ⟨found, inside, isLast⟩
    rcases List.mem_append.mp inside with before | now
    · exact finished (.inr (consumed.finished ⟨found, before, isLast⟩))
    · rw [List.mem_singleton] at now
      exact finished (.inl (now ▸ isLast))
  case begun =>
    intro once inside
    rcases List.mem_append.mp inside with before | now
    · exact begun once (.inr (consumed.begun once before))
    · exact begun once (.inl (List.mem_singleton.mp now).symm)

/-- What is known of a consumer is known after one more act. -/
theorem act (preliminary : Traversal.Preliminary opening) (next : Act) :
    ∃ reply later requests,
      outcome (pass.act handle next) client log = (.ok (reply, later), requests) ∧
        Consumed handle client start opening view stream (earlier ++ [reply]) later requests := by
  cases next with
  | iterate =>
      obtain ⟨reply, iterated, begins, once, nothing, notLast, _⟩ :=
        outcome_act_iterate handle pass client log
      refine ⟨reply, _, _, begins, consumed.snoc ?_ (fun ended => ended.resolve_left notLast)
        fun isWalk _ => once isWalk⟩
      rw [nothing, List.append_nil]
      exact consumed.stands
  | ask more =>
      obtain ⟨answer, walk, requests, polls, answers⟩ := consumed.stands.poll preliminary (more + 1)
      refine ⟨_, _, _, outcome_act_ask polls,
        consumed.snoc ?_ ?_ fun _ begun => begun.resolve_left nofun⟩
      · cases answer with
        | working => exact (List.append_nil _).symm ▸ answers
        | item unit => exact answers.1
        | ended => exact .finished answers
        | failed failure => exact .finished answers
      · rintro (isLast | finished)
        · cases answer with
          | working => exact False.elim isLast
          | item unit => exact False.elim isLast
          | ended => exact answers
          | failed failure => exact answers
        · obtain ⟨later, pollsAgain, isFinished⟩ := Traversal.IsOver.poll (.inl finished) more
          cases polls.symm.trans pollsAgain
          exact isFinished
  | close =>
      exact ⟨_, _, _, outcome_pure _, consumed.snoc (.finished rfl) (fun _ => rfl)
        fun _ begun => begun.resolve_left nofun⟩

end Consumed

theorem exists_outcome_acts_cons {next : Act} {reply : Reply α} {later : SinglePass α}
    {between : List Request}
    (replies : outcome (pass.act handle next) client log = (.ok (reply, later), between))
    (others : List Act) :
    ∃ middle : Log, middle.requests = between ∧ ∀ rest last after,
      outcome (acts handle others later) client middle = (.ok (rest, last), after) →
        outcome (acts handle (next :: others) pass) client log =
          (.ok (reply :: rest, last), after) := by
  obtain ⟨middle, left, goesOn⟩ := exists_outcome_bind replies
    fun found => acts handle others found.2 >>= fun rest => pure (found.1 :: rest.1, rest.2)
  refine ⟨middle, left, fun rest last after acted => ?_⟩
  obtain ⟨final, rfl, ends⟩ := exists_outcome_bind acted
    fun rest => pure (reply :: rest.1, rest.2)
  exact goesOn.trans ends

/-- Whatever a consumer does, it is replied to, and all that is known of it stays known. -/
theorem Consumed.acts (preliminary : Traversal.Preliminary opening) (list : List Act)
    (consumed : Consumed handle client start opening view stream earlier pass log.requests) :
    ∃ replies later requests,
      outcome (SinglePass.acts handle list pass) client log = (.ok (replies, later), requests) ∧
        Consumed handle client start opening view stream (earlier ++ replies) later requests := by
  induction list generalizing earlier pass log with
  | nil => exact ⟨[], pass, log.requests, rfl, (List.append_nil _).symm ▸ consumed⟩
  | cons next others inductionHypothesis =>
      obtain ⟨reply, between, requests, acted, known⟩ := consumed.act preliminary next
      obtain ⟨middle, rfl, goesOn⟩ := exists_outcome_acts_cons acted others
      obtain ⟨replies, later, after, rest, knownAfter⟩ := inductionHypothesis known
      refine ⟨reply :: replies, later, after, goesOn _ _ _ rest, ?_⟩
      rwa [List.append_assoc] at knownAfter

/-- Acts without polls send nothing. -/
theorem outcome_acts_of_not_asks {list : List Act} (silent : ∀ next ∈ list, ¬ next.Asks) :
    ∃ result, outcome (acts handle list pass) client log = (.ok result, log.requests) := by
  induction list generalizing pass log with
  | nil => exact ⟨_, outcome_pure _⟩
  | cons next others inductionHypothesis =>
      rw [List.forall_mem_cons] at silent
      obtain ⟨⟨reply, between⟩, acted⟩ := outcome_act_of_not_asks silent.1
      obtain ⟨middle, left, goesOn⟩ := exists_outcome_acts_cons acted others
      obtain ⟨⟨rest, last⟩, ends⟩ := inductionHypothesis silent.2
      exact ⟨_, left ▸ goesOn rest last _ ends⟩

theorem outcome_act_of_isOver (isOver : pass.walk.IsOver) (next : Act) :
    ∃ reply later,
      outcome (pass.act handle next) client log = (.ok (reply, later), log.requests) ∧
        later.walk.IsOver ∧ ∀ progress, reply = .told progress → progress = .ended := by
  cases next with
  | iterate =>
      obtain ⟨reply, _, begins, _, _, _, nothing⟩ := outcome_act_iterate handle pass client log
      exact ⟨reply, _, begins, isOver, fun progress told => absurd told (nothing progress)⟩
  | ask more =>
      obtain ⟨walk, polls, finished⟩ := isOver.poll more
      refine ⟨_, _, outcome_act_ask polls, .inl finished, ?_⟩
      rintro progress ⟨⟩
      rfl
  | close => exact ⟨_, _, outcome_pure _, .inl rfl, fun _ impossible => nomatch impossible⟩

/-- Nothing is sent once a walk is over, and every poll ends. -/
theorem outcome_acts_of_isOver (isOver : pass.walk.IsOver) (list : List Act) :
    ∃ replies later,
      outcome (acts handle list pass) client log = (.ok (replies, later), log.requests) ∧
        ∀ progress, .told progress ∈ replies → progress = .ended := by
  induction list generalizing pass log with
  | nil => exact ⟨[], pass, outcome_pure _, fun _ impossible => nomatch impossible⟩
  | cons next others inductionHypothesis =>
      obtain ⟨reply, between, acted, stillOver, onlyEnds⟩ := outcome_act_of_isOver isOver next
      obtain ⟨middle, left, goesOn⟩ := exists_outcome_acts_cons acted others
      obtain ⟨rest, last, ends, othersOnlyEnd⟩ := inductionHypothesis stillOver
      refine ⟨reply :: rest, last, left ▸ goesOn rest last _ ends, fun progress inside => ?_⟩
      rcases List.mem_cons.mp inside with same | later
      · exact onlyEnds progress same.symm
      · exact othersOnlyEnd progress later

end SinglePass

/-! ## Requests on demand -/

/-- Some acts of a consumer on a walk that nobody has asked, with what they come to and the log that
they leave. -/
def Acted (handle : Handle) (client : Client) (start : Log) (walk : Traversal α) (list : List Act)
    (replies : List (Reply α)) (pass : SinglePass α) (log : Log) : Prop :=
  SinglePass.acts handle list ⟨walk, false⟩ client start = .ok (replies, pass) log

/-- Requests follow the polls of a consumer, and none goes ahead of them. -/
structure OnDemand (handle : Handle) (client : Client) (start : Log) (walk : Traversal α) : Prop where
  /-- Whatever the consumer does, it is replied to. -/
  replies : ∀ list, ∃ replies pass log, Acted handle client start walk list replies pass log
  /-- Nothing is sent before the first poll. -/
  before : ∀ {list replies pass log}, Acted handle client start walk list replies pass log →
    (∀ next ∈ list, ¬ next.Asks) → log.requests = start.requests
  /-- Nothing is sent between polls, nor by closing, nor by iterating again. -/
  between : ∀ {list replies pass log}, Acted handle client start walk list replies pass log →
    ∀ next : Act, ¬ next.Asks →
      ∃ result later, pass.act handle next client log = .ok result later ∧
        later.requests = log.requests
  /-- A unit that is handed out is the next one, and the requests for pages that were sent by then
  are for its page and the pages before it. -/
  unit : ∀ {list replies pass log}, Acted handle client start walk list replies pass log →
    ∀ {more unit after later},
      pass.act handle (.ask more) client log = .ok (.told (.item unit), after) later →
      (∃ page, walk.HasUnit client start (handedOut replies).length page unit) ∧
        ∀ page other, walk.HasUnit client start (handedOut replies).length page other →
          other = unit ∧ pagesAsked later.requests = pagesAsked start.requests + (page + 1)
  /-- Nothing is sent and every poll ends after a failure, after the end, after closing, and after
  the last unit of the last page. -/
  silent : ∀ {list replies pass log}, Acted handle client start walk list replies pass log →
    (∃ reply ∈ replies, reply.IsLast) ∨
        walk.AllTaken client start (handedOut replies).length →
      ∀ more, ∃ further after later,
        SinglePass.acts handle more pass client log = .ok (further, after) later ∧
          later.requests = log.requests ∧ ∀ progress, .told progress ∈ further → progress = .ended
  /-- Where the consumer has the walk itself, which it has iterated, it is refused another time,
  without a request. -/
  once : handle = .walk →
    ∀ {list replies pass log}, Acted .walk client start walk list replies pass log →
      .begun ∈ replies →
        ∃ later, pass.act .walk .iterate client log = .ok (.refused .alreadyIterated, pass) later ∧
          later.requests = log.requests

theorem exists_run {β : Type} {program : ReadM β} {value : β} {requests : List Request}
    (gives : outcome program client log = (.ok value, requests)) :
    ∃ later, program client log = .ok value later ∧ later.requests = requests :=
  ⟨⟨requests, told program client log⟩, run_eq_ok.mpr ⟨gives, rfl⟩, rfl⟩

theorem consumed_nothing (handle : Handle) (client : Client) (start : Log) (opening : ReadM Query)
    (view : Page → Except Failure (List α)) (stream : Json) :
    SinglePass.Consumed handle client start opening view stream [] ⟨.new opening view stream, false⟩
      start.requests := by
  constructor
  case stands => exact .fresh
  case finished =>
    rintro ⟨_, impossible, _⟩
    cases impossible
  case begun =>
    rintro - impossible
    cases impossible

theorem Acted.consumed (preliminary : Traversal.Preliminary opening) {handle : Handle}
    {list : List Act} {replies : List (Reply α)} {pass : SinglePass α}
    (acted : Acted handle client start (.new opening view stream) list replies pass log) :
    SinglePass.Consumed handle client start opening view stream replies pass log.requests := by
  obtain ⟨_, _, _, found, known⟩ :=
    (consumed_nothing handle client start opening view stream).acts preliminary list
  cases found.symm.trans (run_eq_ok.mp acted).1
  exact known

/-- Every walk whose first query is found without asking for a page sends its requests on demand. -/
theorem onDemand_new (preliminary : Traversal.Preliminary opening) (handle : Handle) (client : Client) (start : Log)
    (view : Page → Except Failure (List α)) (stream : Json) :
    OnDemand handle client start (.new opening view stream) := by
  constructor
  case replies =>
    intro list
    obtain ⟨replies, pass, requests, acted, _⟩ :=
      (consumed_nothing handle client start opening view stream).acts preliminary list
    obtain ⟨log, runs, _⟩ := exists_run acted
    exact ⟨replies, pass, log, runs⟩
  case before =>
    intro list replies pass log acted silent
    obtain ⟨result, found⟩ := SinglePass.outcome_acts_of_not_asks silent
    exact congrArg Prod.snd ((run_eq_ok.mp acted).1.symm.trans found)
  case between =>
    intro list replies pass log _ next silent
    obtain ⟨result, found⟩ := SinglePass.outcome_act_of_not_asks silent
    exact ⟨result, exists_run found⟩
  case unit =>
    intro list replies pass log acted more unit after later polled
    obtain ⟨answer, walk, requests, polls, answers⟩ :=
      (acted.consumed preliminary).stands.poll preliminary (more + 1)
    cases (SinglePass.outcome_act_ask polls).symm.trans (run_eq_ok.mp polled).1
    obtain ⟨page, has, paid⟩ := answers.2
    refine ⟨⟨page, has⟩, fun other found hasOther => ?_⟩
    obtain ⟨rfl, rfl⟩ := has.unique hasOther
    exact ⟨rfl, paid⟩
  case silent =>
    intro list replies pass log acted last more
    have known := acted.consumed preliminary
    have isOver : pass.walk.IsOver := by
      rcases last with ended | taken
      · exact .inl (known.finished ended)
      · exact known.stands.isOver taken
    obtain ⟨further, after, found, onlyEnds⟩ := SinglePass.outcome_acts_of_isOver isOver more
    obtain ⟨later, runs, same⟩ := exists_run found
    exact ⟨further, after, later, runs, same, onlyEnds⟩
  case once =>
    rintro rfl list replies pass log acted begun
    rw [SinglePass.act_iterate_again ((acted.consumed preliminary).begun rfl begun)]
    exact exists_run (outcome_pure _)

end LedgerBook
