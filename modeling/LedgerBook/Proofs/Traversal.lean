import LedgerBook.Traversal
import LedgerBook.Proofs.Paging
/-!
Lazy walks as another computation of the fetching of pages: a walk hands out the units of the pages
that are fetched, in their order, and ends as the fetching does.
-/
namespace LedgerBook.Traversal

open ReadM Paging

variable {α : Type} {client : Client} {log : Log}

/-! ## Single steps -/

/-- Tells the progress of a walk at some of its pages. -/
def tellProgress (walk : Traversal α) (name : Json) (index count : Nat) : ReadM Unit :=
  if tellsProgress (walk.pages + 1) then
    emit (.note .debug "traversal.progress" walk.stream
      (details name [("page", index), ("page_units", count), ("units", walk.handed)]))
  else pure ()

/-- What a walk does with a page, or with the failure to get it. -/
def turned (walk : Traversal α) (name : Json) (index : Nat) :
    Except Failure (List α × Option Position) → ReadM (Progress α × Traversal α)
  | .error failure => do
    emit (.note .error "traversal.failed" walk.stream
      (details name [("page", index), ("units", walk.handed)]
        ++ ([("error", .failed failure)] : Details)))
    return (.failed failure, walk.close)
  | .ok (units, next) => do
    tellProgress walk name index units.length
    return (.working, { walk with phase := .reading name units next, pages := walk.pages + 1 })

theorem turnPage_eq (walk : Traversal α) (name : Json) (position : Position) :
    turnPage walk name position =
      attempt (visit walk.units position) >>= turned walk name position.index := by
  unfold turnPage
  congr 1
  funext visited
  rcases visited with failure | ⟨units, next⟩
  · rfl
  · by_cases tells : tellsProgress (walk.pages + 1) = true
    · simp only [turned, tellProgress, if_pos tells]
    · simp only [turned, tellProgress, if_neg tells, pure_bind]

instance (walk : Traversal α) (name : Json) (index count : Nat) :
    Orderly (tellProgress walk name index count) := by
  unfold tellProgress
  infer_instance

theorem outcome_tellProgress (walk : Traversal α) (name : Json) (index count : Nat) :
    outcome (tellProgress walk name index count) client log = (.ok (), log.requests) := by
  unfold tellProgress
  split <;> rfl

instance (walk : Traversal α) (name : Json) (index : Nat)
    (visited : Except Failure (List α × Option Position)) :
    Orderly (turned walk name index visited) := by
  rcases visited with failure | ⟨units, next⟩
  · unfold turned
    infer_instance
  · unfold turned
    infer_instance

instance (walk : Traversal α) (name : Json) (position : Position) :
    Orderly (turnPage walk name position) := by
  rw [turnPage_eq]
  infer_instance

/-- What a walk begins with once its query is found. -/
def opened (walk : Traversal α) :
    Except Failure Query → ReadM (Progress α × Traversal α)
  | .error failure => return (.failed failure, walk.close)
  | .ok query => do
    emit (.note .info "traversal.start" walk.stream (details query.nameJson []))
    return (.working, { walk with phase := .reading query.nameJson [] (some ⟨query, 0⟩) })

instance (walk : Traversal α) (found : Except Failure Query) : Orderly (opened walk found) := by
  cases found with
  | error failure =>
      unfold opened
      infer_instance
  | ok query =>
      unfold opened
      infer_instance

section Steps

variable (walk : Traversal α)

theorem step_of_finished (phase : walk.phase = .finished) : walk.step = pure (.ended, walk) := by
  rw [step, phase]

theorem step_of_fresh (phase : walk.phase = .fresh) :
    walk.step = attempt walk.opening >>= opened walk := by
  rw [step, phase]
  rfl

/-- A walk that nobody has asked finds its query, or it is closed and fails. -/
theorem outcome_step_of_fresh (phase : walk.phase = .fresh) :
    outcome walk.step client log =
      match outcome walk.opening client log with
      | (.error failure, requests) => (.ok (.failed failure, walk.close), requests)
      | (.ok query, requests) =>
        (.ok (.working, { walk with phase := .reading query.nameJson [] (some ⟨query, 0⟩) }),
          requests) := by
  rw [step_of_fresh walk phase, outcome_bind, outcome_attempt, follow_ok]
  rcases outcome walk.opening client log with ⟨failure | query, requests⟩ <;> rfl

theorem step_of_unit {name : Json} {unit : α} {rest : List α} {next : Option Position}
    (phase : walk.phase = .reading name (unit :: rest) next) :
    walk.step = pure (.item unit,
      { walk with phase := .reading name rest next, handed := walk.handed + 1 }) := by
  rw [step, phase]

theorem step_of_page {name : Json} {position : Position}
    (phase : walk.phase = .reading name [] (some position)) :
    walk.step = turnPage walk name position := by
  rw [step, phase]

theorem outcome_step_of_end {name : Json} (phase : walk.phase = .reading name [] none) :
    outcome walk.step client log = (.ok (.ended, walk.close), log.requests) := by
  rw [step, phase]
  rfl

/-- A walk takes the next page, or it is closed and fails. -/
theorem outcome_step_of_page {name : Json} {position : Position}
    (phase : walk.phase = .reading name [] (some position)) :
    outcome walk.step client log =
      match outcome (visit walk.units position) client log with
      | (.error failure, requests) => (.ok (.failed failure, walk.close), requests)
      | (.ok (units, next), requests) =>
        (.ok (.working, { walk with phase := .reading name units next, pages := walk.pages + 1 }),
          requests) := by
  rw [step_of_page walk phase, turnPage_eq, outcome_bind, outcome_attempt, follow_ok]
  rcases outcome (visit walk.units position) client log with ⟨failure | ⟨units, next⟩, requests⟩
  · rfl
  · simp only [turned, outcome_bind, outcome_tellProgress, follow_ok, outcome_pure]
    rfl

end Steps

/-! ## Walks to the end -/

/-- A walk that somebody has asked. -/
def Started (walk : Traversal α) : Prop :=
  walk.phase ≠ .fresh

theorem started_reading (walk : Traversal α) (name : Json) (units : List α)
    (next : Option Position) : Started { walk with phase := .reading name units next } := by
  intro fresh
  cases fresh

/-- No step of a started walk fails itself, and none starts it again. -/
theorem Started.step {walk : Traversal α} (started : walk.Started) {answer : Progress α}
    {later : Traversal α} (steps : (outcome walk.step client log).1 = .ok (answer, later)) :
    later.Started := by
  intro fresh
  cases phase : walk.phase with
  | fresh => exact started phase
  | finished =>
      rw [step_of_finished walk phase] at steps
      cases steps
      rw [phase] at fresh
      cases fresh
  | reading name units next =>
      cases units with
      | cons unit rest =>
          rw [step_of_unit walk phase] at steps
          cases steps
          cases fresh
      | nil =>
          cases next with
          | none =>
              rw [outcome_step_of_end walk phase] at steps
              cases steps
              cases fresh
          | some position =>
              rw [outcome_step_of_page walk phase] at steps
              split at steps
              · cases steps
                cases fresh
              · cases steps
                cases fresh

theorem orderly_step {walk : Traversal α} (opening : walk.Started ∨ Orderly walk.opening) :
    Orderly walk.step := by
  cases phase : walk.phase with
  | fresh =>
      rw [step_of_fresh walk phase]
      rcases opening with started | orderly
      · exact False.elim (started phase)
      · infer_instance
  | finished =>
      rw [step_of_finished walk phase]
      infer_instance
  | reading name units next =>
      cases units with
      | cons unit rest =>
          rw [step_of_unit walk phase]
          infer_instance
      | nil =>
          cases next with
          | some position =>
              rw [step_of_page walk phase]
              infer_instance
          | none =>
              rw [step, phase]
              infer_instance

/-- What is done after a step on the way to the end. -/
def goOn (limit : Nat) :
    Progress α × Traversal α → ReadM (List α × Progress α × Traversal α)
  | (.working, walk) => drain limit walk
  | (.item unit, walk) => do
    let (units, rest) ← drain limit walk
    return (unit :: units, rest)
  | answer => return ([], answer)

theorem drain_succ (limit : Nat) (walk : Traversal α) :
    drain (limit + 1) walk = walk.step >>= goOn limit := by
  rw [drain]
  rfl

theorem orderly_drain {walk : Traversal α} (started : walk.Started) (limit : Nat) :
    Orderly (drain limit walk) := by
  induction limit generalizing walk with
  | zero =>
      unfold drain
      infer_instance
  | succ limit inductionHypothesis =>
      have orderly := orderly_step (.inl started)
      rw [drain_succ]
      refine Orderly.bind_of ?_
      rintro client log ⟨answer, later⟩ steps
      have rest := inductionHypothesis (started.step steps)
      cases answer <;> (unfold goOn; infer_instance)

theorem outcome_drain_succ {walk : Traversal α} (started : walk.Started) (limit : Nat) :
    outcome (drain (limit + 1) walk) client log =
      follow (outcome walk.step client log) fun answer requests =>
        outcome (goOn limit answer) client (asked requests) := by
  rw [drain_succ]
  apply outcome_bind_of
  rintro ⟨answer, later⟩ steps
  have rest := orderly_drain (started.step steps) limit
  cases answer <;> (unfold goOn; infer_instance)

/-- Units that were handed out come before those that follow. -/
def precede (units : List α)
    (result : Outcome (List α × Progress α × Traversal α)) :
    Outcome (List α × Progress α × Traversal α) :=
  follow result fun found requests => (.ok (units ++ found.1, found.2), requests)

theorem precede_precede (units more : List α)
    (result : Outcome (List α × Progress α × Traversal α)) :
    precede units (precede more result) = precede (units ++ more) result := by
  rcases result with ⟨failure | found, requests⟩
  · rfl
  · simp only [precede, follow_ok, List.append_assoc]

theorem precede_nil (result : Outcome (List α × Progress α × Traversal α)) :
    precede [] result = result := by
  rcases result with ⟨failure | found, requests⟩ <;> rfl

theorem outcome_goOn_item {walk : Traversal α} (started : walk.Started) (limit : Nat) (unit : α) :
    outcome (goOn limit (.item unit, walk)) client log =
      precede [unit] (outcome (drain limit walk) client log) := by
  have orderly := orderly_drain started limit
  rw [goOn, outcome_bind]
  rfl

/-- The units of a page are handed out one after the other. -/
theorem outcome_drain_units (client : Client) (walk : Traversal α) (name : Json) (units : List α)
    (next : Option Position) (limit : Nat) (requests : List Request) :
    outcome (drain (units.length + limit) { walk with phase := .reading name units next }) client
        (asked requests) =
      precede units
        (outcome
          (drain limit
            { walk with phase := .reading name [] next, handed := walk.handed + units.length })
          client (asked requests)) := by
  induction units generalizing walk with
  | nil =>
      rw [List.length_nil, Nat.zero_add, Nat.add_zero, precede_nil]
  | cons unit rest inductionHypothesis =>
      have before := started_reading walk name (unit :: rest) next
      have after := started_reading { walk with handed := walk.handed + 1 } name rest next
      have size : (unit :: rest).length + limit = rest.length + limit + 1 := by
        rw [List.length_cons]
        omega
      have count : walk.handed + (unit :: rest).length = walk.handed + 1 + rest.length := by
        rw [List.length_cons]
        omega
      rw [size, outcome_drain_succ before, step_of_unit _ rfl, outcome_pure, follow_ok]
      refine (outcome_goOn_item after _ unit).trans ?_
      have following := inductionHypothesis { walk with handed := walk.handed + 1 }
      refine (congrArg (precede [unit]) following).trans ?_
      rw [precede_precede, count]
      rfl

end LedgerBook.Traversal

namespace LedgerBook.Paging

open ReadM Traversal

variable {α : Type} {client : Client}

/-- How a walk ends whose pages were fetched. -/
def Ending.progress : Ending → Progress α
  | .complete => .ended
  | .paused _ => .working
  | .failed failure => .failed failure

/-- Whether there is nothing more to fetch. -/
def Ending.IsFinal : Ending → Prop
  | .paused _ => False
  | _ => True

/-- A walk that takes enough steps hands out the units of all pages that are fetched and ends as
their fetching does. It takes no step after its end; a fetching that pauses leaves the walk where
the number of steps says. -/
theorem Fetches.outcome_drain {view : Page → Except Failure (List α)} {next : Option Position}
    {requests after : List Request} {batches : List (List α)} {ending : Ending}
    (fetches : Fetches client view next requests batches ending after) (name : Json)
    (walk : Traversal α) (same : walk.units = view) :
    ∃ bound, ∀ steps, bound ≤ steps → ending.IsFinal ∨ steps = bound →
      ∃ left,
        outcome (drain steps { walk with phase := .reading name [] next }) client
            (asked requests) =
          (.ok (batches.flatten, ending.progress, left), after) := by
  induction fetches generalizing walk with
  | complete =>
      refine ⟨1, fun steps enough _ => ?_⟩
      obtain ⟨fewer, rfl⟩ : ∃ fewer, steps = fewer + 1 := Nat.exists_eq_add_one.mpr enough
      have started := started_reading walk name [] none
      rw [outcome_drain_succ started, outcome_step_of_end _ rfl]
      exact ⟨_, rfl⟩
  | paused =>
      refine ⟨0, fun steps _ exactly => ?_⟩
      rcases exactly with impossible | rfl
      · exact False.elim impossible
      · exact ⟨_, rfl⟩
  | @failed position requests after failure fails =>
      refine ⟨1, fun steps enough _ => ?_⟩
      obtain ⟨fewer, rfl⟩ : ∃ fewer, steps = fewer + 1 := Nat.exists_eq_add_one.mpr enough
      have started := started_reading walk name [] (some position)
      rw [outcome_drain_succ started, outcome_step_of_page _ rfl]
      simp only [same, fails]
      exact ⟨_, rfl⟩
  | @page position next requests between after seen others ending visits _ inductionHypothesis =>
      subst same
      -- One step fetches the page, and one hands out each of its units.
      obtain ⟨bound, follows⟩ := inductionHypothesis
        { walk with pages := walk.pages + 1, handed := walk.handed + seen.length } rfl
      refine ⟨seen.length + bound + 1, fun steps enough exactly => ?_⟩
      obtain ⟨limit, rfl⟩ : ∃ limit, steps = seen.length + limit + 1 :=
        ⟨steps - (seen.length + 1), by omega⟩
      have started := started_reading walk name [] (some position)
      have units := outcome_drain_units client { walk with pages := walk.pages + 1 }
        name seen next limit between
      obtain ⟨left, rest⟩ := follows limit (by omega)
        (exactly.imp_right fun equal => by omega)
      refine ⟨left, ?_⟩
      rw [outcome_drain_succ started, outcome_step_of_page _ rfl]
      simp only [visits, follow_ok, goOn]
      refine units.trans ?_
      rw [rest]
      rfl

/-- What a walk shows of a fetching of pages with some units in all: while it is working, the first
of them; at its end, all of them. -/
def Ending.Shows (ending : Ending) (all got : List α) : Progress α → Prop
  | .working => got <+: all
  | .item _ => False
  | .ended => ending = .complete ∧ got = all
  | .failed failure => ending = .failed failure ∧ got = all

theorem Ending.Shows.precede {ending : Ending} {all got : List α} {progress : Progress α}
    (shows : ending.Shows all got progress) (units : List α) :
    ending.Shows (units ++ all) (units ++ got) progress := by
  cases progress with
  | working => exact (List.prefix_append_right_inj units).mpr shows
  | item unit => exact shows
  | ended => exact ⟨shows.1, by rw [shows.2]⟩
  | failed failure => exact ⟨shows.1, by rw [shows.2]⟩

/-- Whatever the number of its steps, a walk has made the requests of some fetching of pages, and
shows its units. -/
theorem exists_fetches_of_drain (client : Client) (name : Json) (steps : Nat) (walk : Traversal α)
    (units : List α) (next : Option Position) (requests : List Request) :
    ∃ batches ending after got progress left,
      Fetches client walk.units next requests batches ending after ∧
        outcome (drain steps { walk with phase := .reading name units next }) client
            (asked requests) =
          (.ok (got, progress, left), after) ∧
        ending.Shows (units ++ batches.flatten) got progress := by
  induction steps generalizing walk units next requests with
  | zero =>
      cases next with
      | none => exact ⟨[], .complete, requests, [], .working, _, .complete, rfl, List.nil_prefix⟩
      | some position =>
          exact ⟨[], .paused position, requests, [], .working, _, .paused, rfl, List.nil_prefix⟩
  | succ steps inductionHypothesis =>
      rw [outcome_drain_succ (started_reading walk name units next)]
      cases units with
      | cons unit rest =>
          obtain ⟨batches, ending, after, got, progress, left, fetches, drains, shows⟩ :=
            inductionHypothesis { walk with handed := walk.handed + 1 } rest next requests
          refine ⟨batches, ending, after, unit :: got, progress, left, fetches, ?_,
            shows.precede [unit]⟩
          have handed := started_reading { walk with handed := walk.handed + 1 } name rest next
          rw [step_of_unit _ rfl, outcome_pure, follow_ok]
          refine (outcome_goOn_item handed steps unit).trans ?_
          exact congrArg (precede [unit]) drains
      | nil =>
          cases next with
          | none =>
              refine ⟨[], .complete, requests, [], .ended, walk.close, .complete, ?_, rfl, rfl⟩
              rw [outcome_step_of_end _ rfl]
              rfl
          | some position =>
              rw [outcome_step_of_page _ rfl]
              rcases visits : outcome (visit walk.units position) client (asked requests) with
                ⟨failure | ⟨seen, following⟩, between⟩
              · refine ⟨[], .failed failure, between, [], .failed failure, walk.close,
                  .failed visits, ?_, rfl, rfl⟩
                rfl
              · obtain ⟨batches, ending, after, got, progress, left, fetches, drains, shows⟩ :=
                  inductionHypothesis { walk with pages := walk.pages + 1 } seen following between
                refine ⟨seen :: batches, ending, after, got, progress, left, .page visits fetches,
                  ?_, shows⟩
                exact drains

/-! ## From the first step on -/

section Opening

variable (opening : ReadM Query) (view : Page → Except Failure (List α)) (stream : Json)

instance (steps : Nat) (found : Except Failure Query) :
    Orderly (opened (Traversal.new opening view stream) found >>= goOn steps) := by
  cases found with
  | error failure => exact inferInstanceAs (Orderly (pure _))
  | ok query =>
      have rest := orderly_drain
        (started_reading (Traversal.new opening view stream) query.nameJson []
          (some ⟨query, 0⟩)) steps
      change Orderly (emit _ >>= fun _ => drain steps _)
      infer_instance

instance [Orderly opening] (steps : Nat) :
    Orderly (drain steps (Traversal.new opening view stream)) := by
  cases steps with
  | zero =>
      unfold drain
      infer_instance
  | succ steps =>
      rw [drain_succ, step_of_fresh _ rfl, bind_assoc]
      change Orderly (attempt opening >>= _)
      infer_instance

/-- A walk first finds its query, or it is closed and fails. -/
theorem outcome_drain_new {log : Log} [Orderly opening] (steps : Nat) :
    outcome (drain (steps + 1) (Traversal.new opening view stream)) client log =
      match outcome opening client log with
      | (.error failure, requests) =>
        (.ok ([], .failed failure, (Traversal.new opening view stream).close), requests)
      | (.ok query, requests) =>
        outcome
          (drain steps
            { Traversal.new opening view stream with
              phase := .reading query.nameJson [] (some ⟨query, 0⟩) })
          client (asked requests) := by
  rw [drain_succ, step_of_fresh _ rfl, bind_assoc, outcome_bind, outcome_attempt, follow_ok]
  change outcome (opened _ (outcome opening client log).1 >>= goOn steps) client
    (asked (outcome opening client log).2) = _
  rcases outcome opening client log with ⟨failure | query, requests⟩
  · rfl
  · have rest := orderly_drain
      (started_reading (Traversal.new opening view stream) query.nameJson []
        (some ⟨query, 0⟩)) steps
    change outcome (emit _ >>= fun _ => drain steps _) client (asked requests) = _
    rw [outcome_bind, outcome_emit, follow_ok]
    rfl

end Opening

/-- A walk whose query is found hands out the units of all pages that are fetched from it. -/
theorem Fetches.outcome_drain_new (stream : Json) {log : Log} {opening : ReadM Query}
    [Orderly opening] {view : Page → Except Failure (List α)} {query : Query}
    {requests after : List Request} {batches : List (List α)} {ending : Ending}
    (found : outcome opening client log = (.ok query, requests))
    (fetches : Fetches client view (some ⟨query, 0⟩) requests batches ending after) :
    ∃ bound, ∀ steps, bound ≤ steps → ending.IsFinal ∨ steps = bound →
      ∃ left,
        outcome (drain steps (Traversal.new opening view stream)) client log =
          (.ok (batches.flatten, ending.progress, left), after) := by
  obtain ⟨bound, drains⟩ := fetches.outcome_drain query.nameJson
    (Traversal.new opening view stream) rfl
  refine ⟨bound + 1, fun steps enough exactly => ?_⟩
  obtain ⟨fewer, rfl⟩ : ∃ fewer, steps = fewer + 1 := ⟨steps - 1, by omega⟩
  obtain ⟨left, result⟩ := drains fewer (by omega) (exactly.imp_right fun equal => by omega)
  refine ⟨left, ?_⟩
  rw [Paging.outcome_drain_new, found]
  exact result

end LedgerBook.Paging
