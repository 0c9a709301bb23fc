import LedgerBook.Proofs.Confined
import LedgerBook.Proofs.Traversal
/-!
Reads along the pages that are confined to requests of one kind. What keeps them confined is that no
page leads from an allowed query to one that is not allowed.
-/
namespace LedgerBook

open ReadM Paging

/-- Some queries are closed under going on: their requests are of a kind, and pages lead from them
to one another only. -/
structure Query.Closed (kind : Request → Prop) (allowed : Query → Prop) : Prop where
  requests : ∀ query request, allowed query → query.request = .ok request → kind request
  continues : ∀ page query index following, allowed query →
    Query.continuation page query index = .ok (some following) → allowed following

/-- Whether the page at a position, if there is one, is asked for by an allowed query. -/
def Paging.LeadsOn (allowed : Query → Prop) (next : Option Position) : Prop :=
  ∀ position, next = some position → allowed position.query

variable {α β : Type} {kind : Request → Prop} {allowed : Query → Prop}

namespace Query.Closed

variable (closed : Query.Closed kind allowed)

include closed

theorem visit (view : Page → Except Failure β) {position : Position}
    (isAllowed : allowed position.query) :
    Confined kind (Paging.visit view position) fun result => LeadsOn allowed result.2 := by
  unfold Paging.visit
  have asks := fun request => closed.requests position.query request isAllowed
  refine (Confined.of_fetch position.index asks).bind fun page _ => ?_
  refine (Confined.of_anyLift _).bind fun seen _ => ?_
  -- What the page leads to is allowed since the query of the page is.
  have leads : ∀ following,
      Query.continuation page position.query position.index = .ok following →
        ∀ query, following = some query → allowed query := by
    rintro following continues query rfl
    exact closed.continues page position.query position.index query isAllowed continues
  refine (Confined.of_lift leads).bind fun following isLed => Confined.of_pure ?_
  rintro next same
  obtain ⟨query, isNext, rfl⟩ := Option.map_eq_some_iff.mp same
  exact isLed query isNext

theorem pagesFrom (name : Json) (limit : Nat) {next : Option Position}
    (leadsOn : LeadsOn allowed next) :
    Confined kind (Paging.pagesFrom name limit next) fun _ => True := by
  induction limit generalizing next with
  | zero => cases next <;> exact Confined.of_pure trivial
  | succ limit inductionHypothesis =>
      cases next with
      | none => exact Confined.of_pure trivial
      | some position =>
          rw [pagesFrom_succ]
          refine (closed.visit pure (leadsOn position rfl)).bind fun visited leads => ?_
          have tells : Confined kind (tell name position) fun _ => True :=
            .of_silent (.ok ()) (fun _ _ => outcome_tell name position) fun _ _ => trivial
          refine tells.bind fun _ _ => ?_
          exact (inductionHypothesis leads).bind fun rest _ => Confined.of_pure trivial

theorem readAll (limit : Nat) {query : Query} (isAllowed : allowed query) :
    Confined kind (Paging.readAll limit query) fun _ => True := by
  have first : LeadsOn allowed (some ⟨query, 0⟩) := by
    rintro position ⟨⟩
    exact isAllowed
  rw [readAll_eq]
  refine (Confined.of_emit _).bind fun _ _ => ?_
  refine (closed.pagesFrom query.nameJson limit first).of_attempt.bind fun result _ => ?_
  exact .of_silent result (fun _ _ => outcome_concluded query.nameJson result) fun _ _ => trivial

end Query.Closed

namespace Traversal

/-- A walk keeps to allowed queries: the one that it begins with, if it has not begun, or the one
for its next page, if it knows it. -/
def Keeps (kind : Request → Prop) (allowed : Query → Prop) (walk : Traversal α) : Prop :=
  match walk.phase with
  | .fresh => Confined kind walk.opening allowed
  | .reading _ _ next => LeadsOn allowed next
  | .finished => True

theorem keeps_new {opening : ReadM Query} (confined : Confined kind opening allowed)
    (view : Page → Except Failure (List α)) (stream : Json) :
    Keeps kind allowed (Traversal.new opening view stream) :=
  confined

theorem keeps_close (walk : Traversal α) : Keeps kind allowed walk.close :=
  trivial

theorem keeps_reading {walk : Traversal α} {name : Json} {units : List α} {next : Option Position}
    (phase : walk.phase = .reading name units next) :
    Keeps kind allowed walk ↔ LeadsOn allowed next := by
  rw [Keeps, phase]

variable {walk : Traversal α} (closed : Query.Closed kind allowed)

include closed

/-- A walk that keeps to allowed queries sends requests for such a query only, and goes on keeping
to them. -/
theorem Keeps.step (keeps : Keeps kind allowed walk) :
    Confined kind walk.step fun answer => Keeps kind allowed answer.2 := by
  cases phase : walk.phase with
  | finished =>
      rw [step_of_finished walk phase]
      exact Confined.of_pure keeps
  | fresh =>
      rw [Keeps, phase] at keeps
      rw [step_of_fresh walk phase]
      refine keeps.of_attempt.bind fun found isAllowed => ?_
      cases found with
      | error failure => exact Confined.of_pure (keeps_close walk)
      | ok query =>
          refine (Confined.of_emit _).bind fun _ _ => Confined.of_pure ?_
          rintro position ⟨⟩
          exact isAllowed query rfl
  | reading name units next =>
      have leadsOn := (keeps_reading phase).mp keeps
      cases units with
      | cons unit rest =>
          rw [step_of_unit walk phase]
          exact Confined.of_pure leadsOn
      | nil =>
          cases next with
          | none =>
              rw [Traversal.step, phase]
              refine (Confined.of_emit _).bind fun _ _ => ?_
              exact (Confined.of_emit _).bind fun _ _ => Confined.of_pure (keeps_close walk)
          | some position =>
              rw [step_of_page walk phase, turnPage_eq]
              refine (closed.visit walk.units (leadsOn position rfl)).of_attempt.bind
                fun visited leads => ?_
              rcases visited with failure | ⟨units, next⟩
              · exact (Confined.of_emit _).bind fun _ _ => Confined.of_pure (keeps_close walk)
              · have tells : Confined kind (tellProgress walk name position.index units.length)
                    fun _ => True :=
                  .of_silent (.ok ()) (fun _ _ => outcome_tellProgress walk name _ _)
                    fun _ _ => trivial
                exact tells.bind fun _ _ => Confined.of_pure (leads (units, next) rfl)

/-- So does a walk that takes some steps. -/
theorem Keeps.drain (keeps : Keeps kind allowed walk) (steps : Nat) :
    Confined kind (Traversal.drain steps walk) fun _ => True := by
  induction steps generalizing walk with
  | zero => exact Confined.of_pure trivial
  | succ steps inductionHypothesis =>
      rw [drain_succ]
      refine (keeps.step closed).bind ?_
      rintro ⟨progress, later⟩ goesOn
      cases progress with
      | working => exact inductionHypothesis goesOn
      | item unit => exact (inductionHypothesis goesOn).bind fun _ _ => Confined.of_pure trivial
      | ended => exact Confined.of_pure trivial
      | failed failure => exact Confined.of_pure trivial

end Traversal

end LedgerBook
