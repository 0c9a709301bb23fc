import LedgerBook.Proofs.Book.Walks
import LedgerBook.Proofs.Merge.Steady
/-!
The book as a merge of two walks. Its look-ups come first, at most one of each; from then on each
side is a walk with a package, an anchor and a page size that are known, and a source that does not
look at the log.
-/
namespace LedgerBook.Book

open ReadM Paging Traversal

variable {α : Type} {client other : Client} {log : Log} {kind : LedgerBook.Request → Prop}

/-! ## Walks as sources -/

/-- What the step of a walk comes to as an answer of a source. -/
def answerOf (walk : Traversal α) :
    Except Failure (Progress α × Traversal α) → Progress α × Traversal α
  | .ok answer => answer
  | .error failure => (.failed failure, walk.close)

theorem advance_eq (client : Client) (walk : Traversal α) (log : Log) :
    (((source client).advance walk log).1, ((source client).advance walk log).2.1) =
        answerOf walk (outcome walk.step client log).1 ∧
      ((source client).advance walk log).2.2.requests = (outcome walk.step client log).2 := by
  cases ran : walk.step client log with
  | ok answer later => simp only [source, outcome, answerOf, ran, and_self]
  | error failure later => simp only [source, outcome, answerOf, ran, and_self]

/-- As a source, a walk answers what its step comes to. -/
theorem advance_of_step {walk later : Traversal α} {answer : Progress α}
    {requests : List LedgerBook.Request}
    (steps : outcome walk.step client log = (.ok (answer, later), requests)) :
    ∃ between, (source client).advance walk log = (answer, later, between) ∧
      between.requests = requests := by
  obtain ⟨answers, asks⟩ := advance_eq client walk log
  rw [steps] at answers asks
  rcases advanced : (source client).advance walk log with ⟨progress, reached, between⟩
  rw [advanced] at answers asks
  cases answers
  exact ⟨between, rfl, asks⟩

variable {allowed : Query → Prop}

theorem keeps_answerOf {walk : Traversal α} {result : Except Failure (Progress α × Traversal α)}
    (keeps : ∀ answer, result = .ok answer → answer.2.Keeps kind allowed) :
    (answerOf walk result).2.Keeps kind allowed := by
  cases result with
  | error failure => exact keeps_close walk
  | ok answer => exact keeps answer rfl

/-- As a source, a walk that keeps to allowed queries sends requests for such queries only. -/
theorem confined_source (closed : Query.Closed kind allowed) (client : Client) :
    (source client : Merge.Source (Traversal α) α).Confined kind
      (Traversal.Keeps kind allowed) where
  advances := by
    intro walk log keeps
    have confined := keeps.step closed
    obtain ⟨answers, asks⟩ := advance_eq client walk log
    refine ⟨?_, ?_⟩
    · rw [show ((source client).advance walk log).2.1 = _ from congrArg Prod.snd answers]
      exact keeps_answerOf (confined.gives client log)
    · rw [asks]
      exact confined.sends client log
  closes walk _ := keeps_close walk

/-- As sources for clients that agree, walks do the same, whatever is in the log. -/
theorem follows_source (closed : Query.Closed kind allowed) (agree : Agree kind client other) :
    (source other : Merge.Source (Traversal α) α).Follows (source client)
      (Traversal.Keeps kind allowed) where
  answers := by
    intro walk log keeps
    obtain ⟨result, made, here, there⟩ := (keeps.step closed).settled agree Log.empty log
    have answers := (advance_eq other walk log).1
    have reference := (advance_eq client walk Log.empty).1
    rw [there] at answers
    rw [here] at reference
    exact Prod.mk.inj (answers.trans reference.symm)
  requests := by
    intro walk log keeps
    obtain ⟨result, made, here, there⟩ := (keeps.step closed).settled agree Log.empty log
    rw [(advance_eq other walk log).2, (advance_eq client walk Log.empty).2, here, there]
    rfl
  keeps walk := fun keeps => ((confined_source closed client).advances walk Log.empty keeps).1

/-! ## Opening a book -/

/-- The walk over one side of a book whose package and page size are known. -/
def sideWalk (package house : Json) (anchor : Anchor) (asks : Bool) (size : Json) :
    Traversal (Entry Order) :=
  Traversal.new (sideQuery package house anchor asks size)
    (fun page => pure (page.entries Order.read)) (streamName asks)

theorem keeps_sideWalk (package house : Json) (anchor : Anchor) (asks : Bool) {size : Json}
    (isGiven : size.isNull = false) :
    KeepsTo anchor (.int (firstOf size)) (sideWalk package house anchor asks size) :=
  keeps_new ((opens_sideQuery package house anchor asks size).confined isGiven) _ _

namespace Request

variable (request : Request)

/-- The walks over both sides of a book. -/
def walks (package size : Json) : List (Traversal (Entry Order)) :=
  [sideWalk package request.clearingHouse request.anchor true size,
    sideWalk package request.clearingHouse request.anchor false size]

theorem exists_sideWalk_of_mem {package size : Json} {walk : Traversal (Entry Order)}
    (isOne : walk ∈ request.walks package size) :
    ∃ asks, walk = sideWalk package request.clearingHouse request.anchor asks size := by
  rcases List.mem_cons.mp isOne with same | isOther
  · exact ⟨true, same⟩
  · exact ⟨false, List.mem_singleton.mp isOther⟩

theorem mem_walks_of_fresh {package size : Json}
    {first : Merge.State (Traversal (Entry Order)) (Entry Order)}
    (fresh : Merge.Fresh (request.walks package size) first)
    {side : Merge.Side (Traversal (Entry Order)) (Entry Order)} (inside : side ∈ first.sides) :
    side.source ∈ request.walks package size := by
  rw [← fresh.sources_eq]
  exact List.mem_map_of_mem inside

theorem keeps_walks (package : Json) (number : Int) {walk : Traversal (Entry Order)}
    (isOne : walk ∈ request.walks package (.int number)) :
    KeepsTo request.anchor (.int (firstOf (.int number))) walk := by
  obtain ⟨asks, rfl⟩ := request.exists_sideWalk_of_mem isOne
  exact keeps_sideWalk package request.clearingHouse request.anchor asks rfl

theorem keeps_sides {package : Json} {number : Int}
    {first : Merge.State (Traversal (Entry Order)) (Entry Order)}
    (fresh : Merge.Fresh (request.walks package (.int number)) first) :
    ∀ side ∈ first.sides, KeepsTo request.anchor (.int (firstOf (.int number))) side.source :=
  fun _ inside => request.keeps_walks package number (request.mem_walks_of_fresh fresh inside)

theorem exists_sends {client : Client} {package : Json} {number : Int}
    {first state : Merge.State (Traversal (Entry Order)) (Entry Order)}
    {passages : List (Merge.Passage (Entry Order))}
    (fresh : Merge.Fresh (request.walks package (.int number)) first)
    (run : Merge.Run (source client) first passages state) :
    ∃ sent, Merge.Sends (source client) first sent passages state :=
  run.exists_sends (confined_source (closed_pinned _ _) client) (request.keeps_sides fresh)

/-- What follows the look-ups of a book. -/
def launch (package first : Json) : ReadM (List (Traversal (Entry Order))) := do
  emit (.note .info "book.traverse.start" .null
    [("ch", .plain request.clearingHouse), ("version", .plain request.anchor.versionJson),
      ("strong", .plain (.bool request.anchor.isStrong))])
  let asks ← walkSide package request.clearingHouse (.given request.anchor) true first
  let bids ← walkSide package request.clearingHouse (.given request.anchor) false first
  return [asks, bids]

theorem sides_eq :
    request.sides = request.keyPackage >>= fun package =>
      firstVariable request.pageSize >>= request.launch package :=
  rfl

theorem outcome_launch (package first : Json) :
    outcome (request.launch package first) client log =
      (.ok (request.walks package first), log.requests) :=
  rfl

/-- What the look-ups of a book come to: their requests, and both walks with the package and the
page size that they find. -/
theorem sides_spec (client : Client) (log : Log) :
    ∃ packages limits, (outcome request.sides client log).2 =
        log.requests ++ (packages ++ limits) ∧
      PackageLookups request.anchor packages ∧ LimitLookups limits ∧
      ∀ walks, (outcome request.sides client log).1 = .ok walks →
        ∃ package number, walks = request.walks package (.int number) := by
  obtain ⟨packages, asked, isPackage⟩ := requests_keyPackage request client log
  rw [sides_eq]
  rcases outcome_bind_cases request.keyPackage _ client log with
    ⟨failure, _, stops⟩ | ⟨package, between, _, left, goesOn⟩
  · refine ⟨packages, [], ?_, isPackage, .inl rfl, ?_⟩
    · rw [stops, asked, List.append_nil]
    · intro walks impossible
      rw [stops] at impossible
      cases impossible
  · obtain ⟨limits, sized, isLimit⟩ := requests_firstVariable request.pageSize client between
    rw [goesOn]
    refine ⟨packages, limits, ?_, isPackage, isLimit, ?_⟩
    · rw [requests_bind _ fun first client log => by rw [outcome_launch], sized, left, asked,
        List.append_assoc]
    · intro walks launched
      rcases outcome_bind_cases (firstVariable request.pageSize) _ client between with
        ⟨failure, _, stops⟩ | ⟨first, later, sizedFirst, _, goesOnLater⟩
      · rw [stops] at launched
        cases launched
      · obtain ⟨size, _, rfl⟩ := exists_of_firstVariable sizedFirst
        rw [goesOnLater, outcome_launch] at launched
        exact ⟨package, size, (Except.ok.inj launched).symm⟩

/-- A merge starts with the walks and the log that the look-ups leave, and fails only if they do. -/
theorem merge_run (client : Client) (log : Log) :
    request.merge client log =
      match request.sides client log with
      | .error failure later => .error failure later
      | .ok walks later =>
        match Merge.start walks (some [streamName true, streamName false]) later with
        | .ok first => .ok first later
        | .error failure => .error failure later := by
  -- The log is taken once, after the look-ups, and is that of the merge from then on.
  have runs : request.merge client log =
      (request.sides client >>= fun walks => (do
        let later ← get
        liftM (Merge.start walks (some [streamName true, streamName false]) later) :
          ReadM (Merge.State (Traversal (Entry Order)) (Entry Order))) client).run log := rfl
  cases opened : request.sides client log with
  | error failure later =>
      have same : (request.sides client).run log = .error failure later := opened
      simp only [runs, EStateM.run_bind, same]
  | ok walks later =>
      have same : (request.sides client).run log = .ok walks later := opened
      simp only [runs, EStateM.run_bind, same]
      change (liftM (Merge.start walks (some [streamName true, streamName false]) later) :
        ReadM (Merge.State (Traversal (Entry Order)) (Entry Order))) client later = _
      cases Merge.start walks (some [streamName true, streamName false]) later <;> rfl

theorem start_walks (package size : Json) (log : Log) :
    ∃ first : Merge.State (Traversal (Entry Order)) (Entry Order),
      Merge.start (request.walks package size) (some [streamName true, streamName false]) log =
        .ok first ∧ first.log = log :=
  ⟨_, rfl, rfl⟩

/-- Opening a book fails where its look-ups fail, and sends their requests only. -/
theorem outcome_merge_cases (client : Client) (log : Log) :
    (∃ failure requests, outcome request.sides client log = (.error failure, requests) ∧
        outcome request.merge client log = (.error failure, requests)) ∨
      ∃ walks first requests, outcome request.sides client log = (.ok walks, requests) ∧
        outcome request.merge client log = (.ok first, requests) := by
  obtain ⟨_, _, _, _, _, launched⟩ := request.sides_spec client log
  cases ran : request.sides client log with
  | error failure later =>
      refine .inl ⟨failure, later.requests, ?_, ?_⟩
      · rw [outcome, ran]
      · rw [outcome, merge_run, ran]
  | ok walks later =>
      have gives : outcome request.sides client log = (.ok walks, later.requests) := by
        rw [outcome, ran]
      rw [gives] at launched
      obtain ⟨package, number, rfl⟩ := launched walks rfl
      obtain ⟨first, started, _⟩ := request.start_walks package (.int number) later
      refine .inr ⟨_, first, later.requests, gives, ?_⟩
      rw [outcome, merge_run, ran]
      simp only [started]

theorem requests_merge (client : Client) (log : Log) :
    (outcome request.merge client log).2 = (outcome request.sides client log).2 := by
  rcases request.outcome_merge_cases client log with
    ⟨failure, requests, looked, opened⟩ | ⟨walks, first, requests, looked, opened⟩
  · rw [looked, opened]
  · rw [looked, opened]

theorem fails_iff (client : Client) (log : Log) (failure : Failure) :
    (outcome request.merge client log).1 = .error failure ↔
      (outcome request.sides client log).1 = .error failure := by
  rcases request.outcome_merge_cases client log with
    ⟨failure, requests, looked, opened⟩ | ⟨walks, first, requests, looked, opened⟩
  · simp only [looked, opened, Except.error.injEq]
  · simp only [looked, opened, reduceCtorEq]

/-- When a book is opened, the walks that its look-ups lead to are about to be merged. -/
theorem fresh_of_merge {client : Client} {log later : Log}
    {first : Merge.State (Traversal (Entry Order)) (Entry Order)}
    (opened : request.merge client log = .ok first later) :
    ∃ walks, outcome request.sides client log = (.ok walks, first.log.requests) ∧
      Merge.Fresh walks first := by
  obtain ⟨_, _, _, _, _, launched⟩ := request.sides_spec client log
  rw [merge_run] at opened
  cases ran : request.sides client log with
  | error failure between =>
      rw [ran] at opened
      cases opened
  | ok walks between =>
      have gives : outcome request.sides client log = (.ok walks, between.requests) := by
        rw [outcome, ran]
      rw [gives] at launched
      obtain ⟨package, number, rfl⟩ := launched walks rfl
      obtain ⟨state, started, sameLog⟩ := request.start_walks package (.int number) between
      rw [ran] at opened
      simp only [started] at opened
      cases opened
      exact ⟨_, by rw [gives, sameLog], Merge.fresh_of_start started⟩

end Request

end LedgerBook.Book
