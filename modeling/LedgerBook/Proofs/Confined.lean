import LedgerBook.Proofs.Json.Path
import LedgerBook.Proofs.Reading
/-!
Reads that send requests of one kind only. What such a read gives depends on the answers to requests
of that kind and on nothing else: not on what was asked before, and not on what the client would
answer to other requests.
-/
namespace LedgerBook.ReadM

variable {α β : Type} {client other : Client} {log otherLog : Log} {kind : Request → Prop}

/-- Two clients agree on requests of a kind if each of these has one answer, the same for both and
whatever was asked before. -/
def Agree (kind : Request → Prop) (client other : Client) : Prop :=
  ∀ (earlier otherEarlier : List Request) (request : Request), kind request →
    client.answer (earlier ++ [request]) = other.answer (otherEarlier ++ [request])

theorem Agree.mono {fewer : Request → Prop} (agree : Agree kind client other)
    (among : ∀ request, fewer request → kind request) : Agree fewer client other :=
  fun earlier otherEarlier request isOne => agree earlier otherEarlier request (among request isOne)

/-- The answers of a client on which another agrees do not depend on what was asked before. -/
theorem Agree.self (agree : Agree kind client other) : Agree kind client client := by
  intro earlier otherEarlier request isOne
  rw [agree earlier [] request isOne, agree otherEarlier [] request isOne]

/-- A read is confined to requests of a kind and to good values: whatever the client answers, it
sends no other requests and gives no other values. With clients that agree on these requests it
sends the same and gives the same. -/
structure Confined (kind : Request → Prop) (program : ReadM α) (good : α → Prop) : Prop where
  sends : ∀ client log, ∃ made, (outcome program client log).2 = log.requests ++ made ∧
    ∀ request ∈ made, kind request
  gives : ∀ client log value, (outcome program client log).1 = .ok value → good value
  settled : ∀ {client other}, Agree kind client other → ∀ log otherLog, ∃ result made,
    outcome program client log = (result, log.requests ++ made) ∧
      outcome program other otherLog = (result, otherLog.requests ++ made)

namespace Confined

variable {program : ReadM α} {good : α → Prop}

theorem mono {better : α → Prop} (confined : Confined kind program good)
    (implies : ∀ value, good value → better value) : Confined kind program better :=
  ⟨confined.sends,
    fun client log value found => implies value (confined.gives client log value found),
    confined.settled⟩

theorem widen {wider : Request → Prop} (confined : Confined kind program good)
    (among : ∀ request, kind request → wider request) : Confined wider program good where
  sends := by
    intro client log
    obtain ⟨made, asks, isOne⟩ := confined.sends client log
    exact ⟨made, asks, fun request inside => among request (isOne request inside)⟩
  gives := confined.gives
  settled agree := confined.settled (agree.mono among)

theorem of_silent (result : Except Failure α)
    (silent : ∀ client log, outcome program client log = (result, log.requests))
    (gives : ∀ value, result = .ok value → good value) : Confined kind program good where
  sends client log := ⟨[], by rw [silent, List.append_nil], List.forall_mem_nil _⟩
  gives := by
    intro client log value found
    rw [silent] at found
    exact gives value found
  settled := by
    intro client other _ log otherLog
    exact ⟨result, [], by rw [silent, List.append_nil], by rw [silent, List.append_nil]⟩

theorem of_pure {value : α} (isGood : good value) : Confined kind (pure value) good :=
  of_silent (.ok value) (fun _ _ => outcome_pure value) fun _ same => Except.ok.inj same ▸ isGood

theorem of_lift {result : Except Failure α} (gives : ∀ value, result = .ok value → good value) :
    Confined kind (liftM result : ReadM α) good :=
  of_silent result (fun _ _ => outcome_lift result) gives

theorem of_anyLift (result : Except Failure α) :
    Confined kind (liftM result : ReadM α) fun _ => True :=
  of_lift fun _ _ => trivial

theorem of_emit (event : Event) : Confined kind (emit event) fun _ => True :=
  of_silent (.ok ()) (fun _ _ => outcome_emit event) fun _ _ => trivial

theorem of_ask {request : Request} (isOne : kind request) :
    Confined kind (ask request) fun _ => True where
  sends client log := ⟨[request], by rw [outcome_ask], by simpa using isOne⟩
  gives _ _ _ _ := trivial
  settled := by
    intro client other agree log otherLog
    refine ⟨client.answer (log.requests ++ [request]), [request], outcome_ask request, ?_⟩
    rw [outcome_ask, agree log.requests otherLog.requests request isOne]

theorem of_attempt (confined : Confined kind program good) :
    Confined kind (attempt program) fun result => ∀ value, result = .ok value → good value where
  sends := by
    intro client log
    rw [outcome_attempt]
    exact confined.sends client log
  gives := by
    intro client log result found value same
    rw [outcome_attempt] at found
    exact confined.gives client log value ((Except.ok.inj found).trans same)
  settled := by
    intro client other agree log otherLog
    obtain ⟨result, made, here, there⟩ := confined.settled agree log otherLog
    refine ⟨.ok result, made, ?_, ?_⟩
    · rw [outcome_attempt, here]
    · rw [outcome_attempt, there]

theorem of_mapFailure (change : Failure → Failure) (confined : Confined kind program good) :
    Confined kind (mapFailure change program) good where
  sends := by
    intro client log
    rw [outcome_mapFailure]
    exact confined.sends client log
  gives := by
    intro client log value found
    rw [outcome_mapFailure] at found
    exact confined.gives client log value (mapError_eq_ok.mp found)
  settled := by
    intro client other agree log otherLog
    obtain ⟨result, made, here, there⟩ := confined.settled agree log otherLog
    refine ⟨result.mapError change, made, ?_, ?_⟩
    · rw [outcome_mapFailure, here]
    · rw [outcome_mapFailure, there]

/-- A confined read that goes on with a confined read after each of its good values is confined. -/
theorem bind {next : α → ReadM β} {best : β → Prop} (confined : Confined kind program good)
    (rest : ∀ value, good value → Confined kind (next value) best) :
    Confined kind (program >>= next) best where
  sends := by
    intro client log
    obtain ⟨made, first, isOne⟩ := confined.sends client log
    rcases outcome_bind_cases program next client log with
      ⟨failure, _, stops⟩ | ⟨value, later, found, left, goesOn⟩
    · exact ⟨made, by rw [stops, first], isOne⟩
    · obtain ⟨more, second, isOneToo⟩ :=
        (rest value (confined.gives client log value found)).sends client later
      refine ⟨made ++ more, ?_, fun request inside => ?_⟩
      · rw [goesOn, second, left, first, List.append_assoc]
      · rcases List.mem_append.mp inside with early | late
        · exact isOne request early
        · exact isOneToo request late
  gives := by
    intro client log value found
    rcases outcome_bind_cases program next client log with
      ⟨failure, _, stops⟩ | ⟨first, later, gave, _, goesOn⟩
    · rw [stops] at found
      cases found
    · rw [goesOn] at found
      exact (rest first (confined.gives client log first gave)).gives client later value found
  settled := by
    intro client other agree log otherLog
    obtain ⟨result, made, here, there⟩ := confined.settled agree log otherLog
    cases result with
    | error failure =>
        exact ⟨_, made, outcome_bind_error here next, outcome_bind_error there next⟩
    | ok value =>
        -- The second parts start from logs of their own, with nothing in common but what was added.
        obtain ⟨later, left, goesOn⟩ := exists_outcome_bind here next
        obtain ⟨otherLater, otherLeft, otherGoesOn⟩ := exists_outcome_bind there next
        have isGood := confined.gives client log value (congrArg Prod.fst here)
        obtain ⟨final, more, hereToo, thereToo⟩ :=
          (rest value isGood).settled agree later otherLater
        refine ⟨final, made ++ more, ?_, ?_⟩
        · rw [goesOn, hereToo, left, List.append_assoc]
        · rw [otherGoesOn, thereToo, otherLeft, List.append_assoc]

/-- A read that asks for a page sends the request of its query only. -/
theorem of_fetch {query : Query} (index : Int)
    (isOne : ∀ request, query.request = .ok request → kind request) :
    Confined kind (fetch query index) fun _ => True := by
  unfold fetch
  refine (of_lift fun request made => isOne request made).bind fun request asks => ?_
  refine ((of_ask asks).of_mapFailure _).bind fun envelope _ => ?_
  exact (of_anyLift _).bind fun data _ => of_anyLift _

end Confined

end LedgerBook.ReadM
