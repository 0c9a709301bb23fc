import LedgerBook.Proofs.Reading
/-!
What reads tell: the events that are in the log after a read. The outcome of a read and what it
tells are together all that there is of its run.
-/
namespace LedgerBook.ReadM

variable {α β : Type} {client : Client} {log later : Log}

/-- All events that are told by the end of a read. -/
def told (program : ReadM α) (client : Client) (log : Log) : List Event :=
  match program client log with
  | .ok _ later => later.events
  | .error _ later => later.events

theorem run_eq_ok {program : ReadM α} {value : α} :
    program client log = .ok value later ↔
      outcome program client log = (.ok value, later.requests) ∧
        told program client log = later.events := by
  unfold outcome told
  cases program client log with
  | ok found last =>
      obtain ⟨requests, events⟩ := last
      obtain ⟨otherRequests, otherEvents⟩ := later
      simp only [EStateM.Result.ok.injEq, Prod.mk.injEq, Except.ok.injEq, Log.mk.injEq, and_assoc]
  | error failure last => simp

theorem run_eq_error {program : ReadM α} {failure : Failure} :
    program client log = .error failure later ↔
      outcome program client log = (.error failure, later.requests) ∧
        told program client log = later.events := by
  unfold outcome told
  cases program client log with
  | ok found last => simp
  | error found last =>
      obtain ⟨requests, events⟩ := last
      obtain ⟨otherRequests, otherEvents⟩ := later
      simp only [EStateM.Result.error.injEq, Prod.mk.injEq, Except.error.injEq, Log.mk.injEq,
        and_assoc]

theorem run_bind_of_ok {program : ReadM α} {value : α}
    (gives : program client log = .ok value later) (next : α → ReadM β) :
    (program >>= next) client log = next value client later := by
  have runs : (program >>= next) client log =
      (program client >>= fun value => next value client).run log := rfl
  have same : (program client).run log = .ok value later := gives
  rw [runs, EStateM.run_bind, same]
  rfl

/-- A read goes on, if it does, where its first part has left the log. -/
theorem told_bind (program : ReadM α) (next : α → ReadM β) :
    told (program >>= next) client log =
      match outcome program client log with
      | (.ok value, requests) => told (next value) client ⟨requests, told program client log⟩
      | (.error _, _) => told program client log := by
  have runs : (program >>= next) client log =
      (program client >>= fun value => next value client).run log := rfl
  cases first : program client log with
  | error failure later =>
      have same : (program client).run log = .error failure later := first
      simp only [told, outcome, runs, EStateM.run_bind, first, same]
  | ok value later =>
      have same : (program client).run log = .ok value later := first
      simp only [told, outcome, runs, EStateM.run_bind, first, same]
      rfl

theorem told_bind_of_ok {program : ReadM α} (next : α → ReadM β) {value : α}
    {requests : List Request} (gives : outcome program client log = (.ok value, requests)) :
    told (program >>= next) client log =
      told (next value) client ⟨requests, told program client log⟩ := by
  rw [told_bind, gives]

theorem told_bind_of_error {program : ReadM α} (next : α → ReadM β) {failure : Failure}
    {requests : List Request} (fails : outcome program client log = (.error failure, requests)) :
    told (program >>= next) client log = told program client log := by
  rw [told_bind, fails]

theorem told_bind_pure (program : ReadM α) (change : α → β) :
    told (program >>= fun value => pure (change value)) client log = told program client log := by
  rw [told_bind]
  split
  · rfl
  · rfl

theorem told_pure (value : α) : told (pure value) client log = log.events :=
  rfl

theorem told_emit (event : Event) : told (emit event) client log = log.events ++ [event] :=
  rfl

theorem told_attempt (program : ReadM α) :
    told (attempt program) client log = told program client log := by
  unfold told attempt
  cases program client log with
  | ok value later => rfl
  | error failure later => rfl

theorem told_mapFailure (change : Failure → Failure) (program : ReadM α) :
    told (mapFailure change program) client log = told program client log := by
  unfold told mapFailure
  cases program client log with
  | ok value later => rfl
  | error failure later => rfl

/-! ## Reads that tell nothing -/

/-- A read that tells nothing of its own. -/
class Quiet (program : ReadM α) : Prop where
  told_eq : ∀ (client : Client) (log : Log), told program client log = log.events

theorem told_quiet (program : ReadM α) [Quiet program] :
    told program client log = log.events :=
  Quiet.told_eq client log

theorem run_attempt_of_quiet (program : ReadM α) [Quiet program] :
    attempt program client log =
      .ok (outcome program client log).1 ⟨(outcome program client log).2, log.events⟩ := by
  have tells : told (attempt program) client log = log.events := by
    rw [told_attempt, told_quiet]
  exact run_eq_ok.mpr ⟨outcome_attempt program, tells⟩

instance (value : α) : Quiet (pure value) :=
  ⟨fun _ _ => rfl⟩

instance (failure : Failure) : Quiet (throw failure : ReadM α) :=
  ⟨fun _ _ => rfl⟩

instance (result : Except Failure α) : Quiet (ofExcept result) :=
  ⟨fun _ _ => by cases result <;> rfl⟩

instance (result : Except Failure α) : Quiet (liftM result : ReadM α) :=
  inferInstanceAs (Quiet (ofExcept result))

instance (request : Request) : Quiet (ask request) where
  told_eq := by
    intro client log
    change told (ofExcept (client.answer (log.requests ++ [request]))) client
      { log with requests := log.requests ++ [request] } = _
    rw [told_quiet]

instance (program : ReadM α) (next : α → ReadM β) [Quiet program]
    [∀ value, Quiet (next value)] : Quiet (program >>= next) where
  told_eq := by
    intro client log
    rw [told_bind]
    split
    · rw [told_quiet, told_quiet]
    · exact told_quiet program

instance (change : Failure → Failure) (program : ReadM α) [Quiet program] :
    Quiet (mapFailure change program) where
  told_eq := by
    intro client log
    rw [told_mapFailure, told_quiet]

instance (query : Query) (index : Int) : Quiet (fetch query index) := by
  unfold fetch
  infer_instance

end LedgerBook.ReadM
