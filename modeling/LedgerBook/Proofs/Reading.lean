import LedgerBook.Reading
/-!
Reads without their events. Nothing in a read depends on the events that were told before it, and no
request is ever taken back, so that a read is known by its outcome: what it gives, and the requests
that were made.
-/
namespace LedgerBook.ReadM

variable {α β : Type} {client : Client} {log : Log}

/-- What a read gives, or how it fails, and all requests that were made by then. -/
abbrev Outcome (α : Type) := Except Failure α × List Request

/-- The outcome of a read with a client, from a log on. -/
def outcome (program : ReadM α) (client : Client) (log : Log) : Outcome α :=
  match program client log with
  | .ok value log => (.ok value, log.requests)
  | .error failure log => (.error failure, log.requests)

/-- The outcome of a read does not depend on earlier events, and adds to the earlier requests. -/
class Orderly (program : ReadM α) : Prop where
  blind : ∀ {client : Client} {log other : Log},
    log.requests = other.requests → outcome program client log = outcome program client other
  grows : ∀ (client : Client) (log : Log), log.requests <+: (outcome program client log).2

theorem outcome_congr (program : ReadM α) [Orderly program] {other : Log}
    (same : log.requests = other.requests) :
    outcome program client log = outcome program client other :=
  Orderly.blind same

theorem outcome_grows (program : ReadM α) [Orderly program] :
    log.requests <+: (outcome program client log).2 :=
  Orderly.grows client log

/-- A log with some requests. -/
def asked (requests : List Request) : Log :=
  ⟨requests, []⟩

theorem outcome_asked (program : ReadM α) [Orderly program] :
    outcome program client log = outcome program client (asked log.requests) :=
  outcome_congr program rfl

/-- The outcome of a read goes on with what its value decides. -/
def follow (result : Outcome α) (next : α → List Request → Outcome β) : Outcome β :=
  match result with
  | (.ok value, requests) => next value requests
  | (.error failure, requests) => (.error failure, requests)

theorem follow_ok (value : α) (requests : List Request) (next : α → List Request → Outcome β) :
    follow (.ok value, requests) next = next value requests :=
  rfl

@[simp]
theorem outcome_pure (value : α) :
    outcome (pure value) client log = (.ok value, log.requests) :=
  rfl

@[simp]
theorem outcome_throw (failure : Failure) :
    outcome (throw failure : ReadM α) client log = (.error failure, log.requests) :=
  rfl

@[simp]
theorem outcome_ofExcept (result : Except Failure α) :
    outcome (ofExcept result) client log = (result, log.requests) := by
  cases result with
  | ok value => rfl
  | error failure => rfl

@[simp]
theorem outcome_lift (result : Except Failure α) :
    outcome (liftM result : ReadM α) client log = (result, log.requests) :=
  outcome_ofExcept result

@[simp]
theorem outcome_emit (event : Event) :
    outcome (emit event) client log = (.ok (), log.requests) :=
  rfl

@[simp]
theorem outcome_ask (request : Request) :
    outcome (ask request) client log =
      (client.answer (log.requests ++ [request]), log.requests ++ [request]) := by
  change outcome (ofExcept (client.answer (log.requests ++ [request]))) client
    { log with requests := log.requests ++ [request] } = _
  rw [outcome_ofExcept]

theorem liftM_bind (result : Except Failure α) (next : α → Except Failure β) :
    (liftM (result >>= next) : ReadM β) = liftM result >>= fun value => liftM (next value) := by
  cases result <;> rfl

theorem outcome_bind_error {program : ReadM α} {failure : Failure} {requests : List Request}
    (fails : outcome program client log = (.error failure, requests)) (next : α → ReadM β) :
    outcome (program >>= next) client log = (.error failure, requests) := by
  have runs : (program >>= next) client log =
      (program client >>= fun value => next value client).run log := rfl
  cases first : program client log with
  | ok value later =>
      rw [outcome, first] at fails
      cases fails
  | error other later =>
      have same : (program client).run log = .error other later := first
      rw [outcome, first] at fails
      cases fails
      simp only [outcome, runs, EStateM.run_bind, same]

/-- A read that goes on does so from the log that its first part leaves. -/
theorem exists_outcome_bind {program : ReadM α} {value : α} {requests : List Request}
    (gives : outcome program client log = (.ok value, requests)) (next : α → ReadM β) :
    ∃ later, later.requests = requests ∧
      outcome (program >>= next) client log = outcome (next value) client later := by
  have runs : (program >>= next) client log =
      (program client >>= fun value => next value client).run log := rfl
  cases first : program client log with
  | error failure later =>
      rw [outcome, first] at gives
      cases gives
  | ok found later =>
      have same : (program client).run log = .ok found later := first
      rw [outcome, first] at gives
      cases gives
      refine ⟨later, rfl, ?_⟩
      simp only [outcome, runs, EStateM.run_bind, same]
      rfl

theorem outcome_bind_cases (program : ReadM α) (next : α → ReadM β) (client : Client) (log : Log) :
    (∃ failure, (outcome program client log).1 = .error failure ∧
        outcome (program >>= next) client log =
          (.error failure, (outcome program client log).2)) ∨
      ∃ value later, (outcome program client log).1 = .ok value ∧
        later.requests = (outcome program client log).2 ∧
        outcome (program >>= next) client log = outcome (next value) client later := by
  rcases found : outcome program client log with ⟨failure | value, requests⟩
  · exact .inl ⟨failure, rfl, outcome_bind_error found next⟩
  · obtain ⟨later, left, goesOn⟩ := exists_outcome_bind found next
    exact .inr ⟨value, later, rfl, left, goesOn⟩

theorem outcome_bind_of {program : ReadM α} {next : α → ReadM β}
    (orderly : ∀ value, (outcome program client log).1 = .ok value → Orderly (next value)) :
    outcome (program >>= next) client log =
      follow (outcome program client log) fun value requests =>
        outcome (next value) client (asked requests) := by
  rcases found : outcome program client log with ⟨failure | value, requests⟩
  · exact outcome_bind_error found next
  · have nextOrderly : Orderly (next value) := orderly value (by rw [found])
    obtain ⟨later, rfl, goesOn⟩ := exists_outcome_bind found next
    rw [goesOn, follow_ok, ← outcome_asked (next value)]

theorem outcome_bind (program : ReadM α) (next : α → ReadM β) [∀ value, Orderly (next value)] :
    outcome (program >>= next) client log =
      follow (outcome program client log) fun value requests =>
        outcome (next value) client (asked requests) :=
  outcome_bind_of fun _ _ => inferInstance

theorem outcome_attempt (program : ReadM α) :
    outcome (attempt program) client log =
      (.ok (outcome program client log).1, (outcome program client log).2) := by
  unfold outcome attempt
  cases program client log with
  | ok value later => rfl
  | error failure later => rfl

theorem outcome_mapFailure (change : Failure → Failure) (program : ReadM α) :
    outcome (mapFailure change program) client log =
      ((outcome program client log).1.mapError change, (outcome program client log).2) := by
  unfold outcome mapFailure
  cases program client log with
  | ok value later => rfl
  | error failure later => rfl

/-! ## Orderly reads -/

/-- A read that asks nothing is orderly. -/
theorem Orderly.of_silent {program : ReadM α} (result : Client → Except Failure α)
    (silent : ∀ client log, outcome program client log = (result client, log.requests)) :
    Orderly program where
  blind := by
    intro client log other same
    rw [silent, silent, same]
  grows := by
    intro client log
    have asked : (outcome program client log).2 = log.requests := by rw [silent]
    exact asked ▸ List.prefix_rfl

instance (value : α) : Orderly (pure value) :=
  .of_silent (fun _ => .ok value) fun _ _ => outcome_pure value

instance (failure : Failure) : Orderly (throw failure : ReadM α) :=
  .of_silent (fun _ => .error failure) fun _ _ => outcome_throw failure

instance (result : Except Failure α) : Orderly (ofExcept result) :=
  .of_silent (fun _ => result) fun _ _ => outcome_ofExcept result

instance (result : Except Failure α) : Orderly (liftM result : ReadM α) :=
  inferInstanceAs (Orderly (ofExcept result))

instance (event : Event) : Orderly (emit event) :=
  .of_silent (fun _ => .ok ()) fun _ _ => outcome_emit event

instance : Orderly (read : ReadM Client) :=
  .of_silent (fun client => .ok client) fun _ _ => rfl

instance (request : Request) : Orderly (ask request) where
  blind := by
    intro client log other same
    rw [outcome_ask, outcome_ask, same]
  grows := by
    intro client log
    rw [outcome_ask]
    exact List.prefix_append _ _

/-- A read that goes on with an orderly read after each of its values is orderly. -/
theorem Orderly.bind_of {program : ReadM α} {next : α → ReadM β} [Orderly program]
    (orderly : ∀ client log value,
      (outcome program client log).1 = .ok value → Orderly (next value)) :
    Orderly (program >>= next) where
  blind := by
    intro client log other same
    rw [outcome_bind_of (orderly client log), outcome_bind_of (orderly client other),
      outcome_congr program same]
  grows := by
    intro client log
    have first : log.requests <+: (outcome program client log).2 := outcome_grows program
    rw [outcome_bind_of (orderly client log)]
    cases runs : outcome program client log with
    | mk result requests =>
        rw [runs] at first
        cases result with
        | error failure => exact first
        | ok value =>
            have nextOrderly : Orderly (next value) := orderly client log value (by rw [runs])
            exact first.trans (Orderly.grows client (asked requests))

instance (program : ReadM α) (next : α → ReadM β) [Orderly program]
    [∀ value, Orderly (next value)] : Orderly (program >>= next) :=
  .bind_of fun _ _ _ _ => inferInstance

instance (program : ReadM α) [Orderly program] : Orderly (attempt program) where
  blind := by
    intro client log other same
    rw [outcome_attempt, outcome_attempt, outcome_congr program same]
  grows := by
    intro client log
    rw [outcome_attempt]
    exact outcome_grows program

instance (change : Failure → Failure) (program : ReadM α) [Orderly program] :
    Orderly (mapFailure change program) where
  blind := by
    intro client log other same
    rw [outcome_mapFailure, outcome_mapFailure, outcome_congr program same]
  grows := by
    intro client log
    rw [outcome_mapFailure]
    exact outcome_grows program

instance (condition : Prop) [Decidable condition] (program other : ReadM α) [Orderly program]
    [Orderly other] : Orderly (if condition then program else other) := by
  split <;> infer_instance

instance (query : Query) (index : Int) : Orderly (fetch query index) := by
  unfold fetch
  infer_instance

end LedgerBook.ReadM
