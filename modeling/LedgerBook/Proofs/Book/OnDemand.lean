import LedgerBook.Proofs.Book.Walks
import LedgerBook.Proofs.Traversal.Consumer
/-!
The walks of a book send their requests on demand: whatever units a page has, and whether the first
query is given or needs a look-up of the page size.
-/
namespace LedgerBook

open ReadM Paging

variable {α : Type} {client : Client} {start log : Log} {opening : ReadM Query}

theorem Traversal.preliminary_pure (query : Query) : Preliminary (pure query) where
  orderly := inferInstance
  asksNoPage client log := by rw [outcome_pure]

namespace Book

theorem Opens.preliminary {anchor : Anchor} {given : Json} [Orderly opening]
    (opens : Opens anchor given opening) : Traversal.Preliminary opening where
  orderly := inferInstance
  asksNoPage client log := by
    obtain ⟨limits, asks, isLimit⟩ := opens.requests client log
    rw [asks, pagesAsked, List.countP_append, pagesAsked]
    rcases isLimit with rfl | rfl <;> rfl

/-- The reads that make a walk, and what they give of it: the walk over the units of the pages of a
query, and the iterators over the entries of a map and over the orders of one side of a clearing
house. -/
inductive Makes : {α : Type} → Handle → ReadM (Traversal α) → Prop
  | ofQuery {α : Type} (query : Query) (units : Page → Except Failure (List α)) (stream : Json) :
      Makes .walk (pure (Traversal.new (pure query) units stream))
  | ofMap {α : Type} (map : Json) (anchor : AnchorArgument) (value : Bcs.Reader α)
      (pageSize stream : Json) : Makes .iterator (walkMap map anchor value pageSize stream)
  | ofSide (package clearingHouse : Json) (anchor : AnchorArgument) (asks : Bool)
      (pageSize : Json) : Makes .iterator (walkSide package clearingHouse anchor asks pageSize)

/-- A walk that is announced with its anchor is made without a request, and sends its requests on
demand. -/
theorem onDemand_announced (handle : Handle) {anchor : AnchorArgument} {stream : Json}
    {opening : Anchor → ReadM Query} {view : Page → Except Failure (List α)}
    (preliminary : ∀ strong, Traversal.Preliminary (opening strong)) :
    let making := announce anchor stream >>= fun strong =>
      pure (Traversal.new (opening strong) view stream)
    (outcome making client start).2 = start.requests ∧
      ∀ walk log, making client start = .ok walk log → OnDemand handle client log walk := by
  intro making
  have made : outcome making client start =
      (anchor.required.map fun strong => .new (opening strong) view stream, start.requests) :=
    outcome_announced anchor stream _
  refine ⟨congrArg Prod.snd made, fun walk log makes => ?_⟩
  have found := congrArg Prod.fst (made.symm.trans (run_eq_ok.mp makes).1)
  cases required : anchor.required with
  | error failure =>
      rw [required] at found
      cases found
  | ok strong =>
      rw [required] at found
      cases found
      exact onDemand_new (preliminary strong) handle client log view stream

/-- Nothing is fetched ahead of the consumer. A walk is made without a request, and from there on
its requests follow the polls: when the unit of some number is handed out, the requests for pages
are those for its page and the pages before it, and nothing is sent otherwise. A walk itself is iterated
once only; an iterator may be iterated as often as one likes. -/
theorem requests_follow_polls {handle : Handle} {making : ReadM (Traversal α)}
    (makes : Makes handle making) (client : Client) (start : Log) :
    (outcome making client start).2 = start.requests ∧
      ∀ walk log, making client start = .ok walk log → OnDemand handle client log walk := by
  cases makes with
  | ofQuery query units stream =>
      refine ⟨rfl, ?_⟩
      rintro walk log ⟨⟩
      exact onDemand_new (Traversal.preliminary_pure query) .walk client _ units stream
  | ofMap map anchor value pageSize stream =>
      exact onDemand_announced .iterator fun strong => (opens_mapQuery map strong pageSize).preliminary
  | ofSide package clearingHouse anchor asks pageSize =>
      exact onDemand_announced .iterator fun strong =>
        (opens_sideQuery package clearingHouse strong asks pageSize).preliminary

/-- A walk over two pages with one unit each, which is whether another page follows. -/
def overTwoPages : Traversal Bool :=
  .new (pure firstOfTwo) (fun page => pure [page.info.hasNext]) .null

/-- Two units on two pages are handed out for two requests. The walk is not iterated again, and
nothing is sent after the second unit. -/
theorem requests_follow_polls_over_two_pages :
    Makes .walk (pure overTwoPages) ∧
      ∃ pass log, Acted .walk twoPages Log.empty overTwoPages [.iterate, .ask 2, .ask 1]
          [.begun, .told (.item true), .told (.item false)] pass log ∧
        pagesAsked log.requests = 2 ∧
        (∃ later, pass.act .walk .iterate twoPages log = .ok (.refused .alreadyIterated, pass) later ∧
          later.requests = log.requests) ∧
        ∀ more, ∃ further after later,
          SinglePass.acts .walk more pass twoPages log = .ok (further, after) later ∧
            later.requests = log.requests ∧
              ∀ progress, .told progress ∈ further → progress = .ended := by
  have makes : Makes .walk (pure overTwoPages) := .ofQuery _ _ _
  have demanded := (requests_follow_polls makes twoPages Log.empty).2 _ _ rfl
  obtain ⟨pass, log, acted⟩ : ∃ pass log, Acted .walk twoPages Log.empty overTwoPages [.iterate, .ask 2]
      [.begun, .told (.item true)] pass log := ⟨_, _, rfl⟩
  obtain ⟨after, later, polled, actedTwice⟩ : ∃ after later,
      pass.act .walk (.ask 1) twoPages log = .ok (.told (.item false), after) later ∧
        Acted .walk twoPages Log.empty overTwoPages [.iterate, .ask 2, .ask 1]
          [.begun, .told (.item true), .told (.item false)] after later := by
    cases acted
    exact ⟨_, _, rfl, rfl⟩
  have second : overTwoPages.HasUnit twoPages Log.empty 1 1 false :=
    ⟨_, _, [[true], [false]], _, _, rfl, .page rfl (.page rfl .complete), [false], 0, rfl, rfl, rfl⟩
  have taken : overTwoPages.AllTaken twoPages Log.empty 2 :=
    ⟨_, _, [[true]], [false], _, rfl, .page rfl (.page rfl .complete), List.cons_ne_nil _ _, rfl⟩
  refine ⟨makes, after, later, actedTwice, ?_, ?_, demanded.silent actedTwice (.inr taken)⟩
  · exact ((demanded.unit acted polled).2 1 false second).2
  · exact demanded.once rfl actedTwice List.mem_cons_self

end Book

end LedgerBook
