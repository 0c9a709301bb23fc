import LedgerBook.Proofs.Book.Anchored
import LedgerBook.Proofs.Book.Fold
import LedgerBook.Proofs.Merge.Completion
/-!
The folded book does not depend on the schedule. If the answers of a service depend on the request
only, then in whatever order the workers and the consumer of a book take their steps, each side does
what it does when it is read alone, so that the merged entries are always the same but for their
order, and the folded book is the same.
-/
namespace LedgerBook.Book

open ReadM Paging Traversal

variable {α : Type} {client : Client} {log : Log} {kind : LedgerBook.Request → Prop}
  {allowed : Query → Prop}

/-! ## Walks that are read alone -/

/-- A step that ends a walk leaves it finished. -/
theorem phase_of_last {walk later : Traversal α} {progress : Progress α} {ending : Merge.Outcome}
    (found : (outcome walk.step client log).1 = .ok (progress, later))
    (last : Merge.Message.ofProgress? progress = some (.last ending)) :
    later.phase = .finished := by
  cases phase : walk.phase with
  | finished =>
      rw [step_of_finished walk phase] at found
      cases found
      exact phase
  | fresh =>
      rw [step_of_fresh walk phase] at found
      rcases outcome_bind_cases (attempt walk.opening) (opened walk) client log with
        ⟨failure, _, stops⟩ | ⟨result, between, _, _, goesOn⟩
      · rw [stops] at found
        cases found
      · rw [goesOn] at found
        cases result with
        | error failure =>
            cases found
            rfl
        | ok query =>
            cases found
            cases last
  | reading name units next =>
      cases units with
      | cons unit rest =>
          rw [step_of_unit walk phase] at found
          cases found
          cases last
      | nil =>
          cases next with
          | none =>
              rw [outcome_step_of_end walk phase] at found
              cases found
              rfl
          | some position =>
              rw [outcome_step_of_page walk phase] at found
              split at found
              · cases found
                rfl
              · cases found
                cases last

/-- A walk that has come out stays so. -/
theorem rests_source (client : Client) :
    (source client : Merge.Source (Traversal α) α).Rests fun walk => walk.phase = .finished where
  comes := by
    intro walk log ending last
    rcases found : outcome walk.step client log with ⟨failure | ⟨progress, later⟩, requests⟩
    · have answers := (advance_eq client walk log).1
      rw [found] at answers
      rw [show ((source client).advance walk log).2.1 = walk.close from congrArg Prod.snd answers]
      rfl
    · obtain ⟨between, advanced, _⟩ := advance_of_step found
      rw [advanced] at last ⊢
      exact phase_of_last (congrArg Prod.fst found) last
  stays := by
    intro walk log finished
    have steps : outcome walk.step client log = (.ok (.ended, walk), log.requests) := by
      rw [step_of_finished walk finished, outcome_pure]
    obtain ⟨between, advanced, _⟩ := advance_of_step steps
    rw [advanced]
    exact ⟨nofun, finished⟩

/-- What a step of a walk comes to is the answer of the walk as a source that is read alone. -/
theorem answers_alone (closed : Query.Closed kind allowed) (agree : Agree kind client client)
    {walk later : Traversal α} (keeps : walk.Keeps kind allowed) {progress : Progress α}
    (found : (outcome walk.step client log).1 = .ok (progress, later)) :
    ((source client).advance walk Log.empty).1 = progress ∧
      ((source client).advance walk Log.empty).2.1 = later ∧
      (outcome walk.step client log).2 =
        log.requests ++ ((source client).advance walk Log.empty).2.2.requests := by
  have follows := follows_source (α := α) closed agree
  obtain ⟨sameAnswer, sameState⟩ := follows.answers walk log keeps
  obtain ⟨answers, asks⟩ := advance_eq client walk log
  rw [found] at answers
  refine ⟨?_, ?_, ?_⟩
  · exact sameAnswer.symm.trans (congrArg Prod.fst answers)
  · exact sameState.symm.trans (congrArg Prod.snd answers)
  · rw [← asks, follows.requests walk log keeps]

/-- A walk that is read to its normal end comes out, as a source, with the same units and
requests. -/
theorem comesOut_of_drain (closed : Query.Closed kind allowed) (agree : Agree kind client client)
    {walk rest : Traversal α} (keeps : walk.Keeps kind allowed) {steps : Nat} {units : List α}
    {requests : List LedgerBook.Request}
    (drained : outcome (drain steps walk) client log = (.ok (units, .ended, rest), requests)) :
    ∃ made, requests = log.requests ++ made ∧
      (source client).ComesOut walk units made .exhausted := by
  induction steps generalizing walk log units requests rest with
  | zero => cases drained
  | succ steps inductionHypothesis =>
      rw [drain_succ] at drained
      rcases outcome_bind_cases walk.step (goOn steps) client log with
        ⟨failure, _, stops⟩ | ⟨⟨progress, later⟩, between, found, left, goesOn⟩
      · rw [stops] at drained
        cases drained
      · have keepsLater : later.Keeps kind allowed := (keeps.step closed).gives client log _ found
        obtain ⟨answer, rfl, asks⟩ := answers_alone closed agree keeps found
        have requested := left.trans asks
        rw [goesOn] at drained
        cases progress with
        | working =>
            obtain ⟨made, same, out⟩ := inductionHypothesis keepsLater drained
            refine ⟨_, ?_, .cons_working answer out⟩
            rw [same, requested, List.append_assoc]
        | item unit =>
            change outcome (drain steps _ >>= fun found => pure (unit :: found.1, found.2)) client
              between = _ at drained
            rcases outcome_bind_cases (drain steps _) _ client between with
              ⟨failure, _, stops⟩ | ⟨⟨others, ending, last⟩, final, gave, reached, ends⟩
            · rw [stops] at drained
              cases drained
            · rw [ends] at drained
              cases drained
              obtain ⟨made, same, out⟩ :=
                inductionHypothesis keepsLater (Prod.ext gave reached.symm)
              refine ⟨_, same.trans ?_, .cons_unit answer out⟩
              rw [requested, List.append_assoc]
        | ended =>
            cases drained
            exact ⟨_, requested, .of_last (by rw [answer]; rfl)⟩
        | failed failure => cases drained

/-! ## Look-ups -/

/-- Whether the answer to a request depends on the request only. -/
def Steady (client : Client) : Prop :=
  Agree (fun _ => True) client client

theorem confined_sizeOf (size : Json) :
    Confined (fun _ => True) (Lookup.sizeOf size) fun _ => True := by
  have limit (named : Json) : Confined (fun _ => True) (Lookup.limitOf named) fun _ => True := by
    unfold Lookup.limitOf
    split
    · exact (Confined.of_emit _).bind fun _ _ => Confined.of_pure trivial
    · exact Confined.of_anyLift _
  cases size with
  | null =>
      rw [Lookup.sizeOf, Lookup.serviceLimit_eq]
      exact (confined_content _ _ trivial).bind fun _ _ => limit _
  | _ => exact Confined.of_anyLift _

/-- What is found as the page size of a read does not depend on when. -/
theorem Steady.firstVariable (steady : Steady client) (given : Json) (log otherLog : Log) :
    (outcome (firstVariable given) client log).1 =
      (outcome (firstVariable given) client otherLog).1 := by
  -- The page size of the client is no request, so that only a look-up could change with the log.
  have finds (log : Log) : outcome (Book.firstVariable given) client log =
      outcome (duringFirstPage (Lookup.sizeOf (if given.isNull then client.pageSize else given)) >>=
        fun size => pure (.int size)) client log := by
    have sized : outcome (Lookup.pageSize given) client log =
        outcome (Lookup.sizeOf (if given.isNull then client.pageSize else given)) client log := by
      rw [Lookup.pageSize_eq, outcome_bind]
      exact (outcome_asked _).symm
    rw [firstVariable_eq, outcome_bind, outcome_bind, duringFirstPage, duringFirstPage,
      outcome_mapFailure, outcome_mapFailure, sized]
  have confined : Confined (fun _ => True)
      (duringFirstPage (Lookup.sizeOf (if given.isNull then client.pageSize else given)) >>=
        fun size => (pure (.int size) : ReadM Json)) fun _ => True :=
    ((confined_sizeOf _).of_mapFailure _).bind fun _ _ => Confined.of_pure trivial
  obtain ⟨result, made, here, there⟩ := confined.settled steady log otherLog
  rw [finds, finds, here, there]

/-! ## Books -/

/-- The index of a side in the merge of a book. -/
def sideIndex (asks : Bool) : Nat :=
  if asks then 0 else 1

/-- Both sides of a book read alone, each to its normal end, with the package and the page size that
the look-ups of the book find: their entries and their requests. -/
structure Apart (request : Request) (client : Client) where
  package : Json
  size : Int
  findsPackage : (outcome request.keyPackage client Log.empty).1 = .ok package
  findsSize : (outcome (firstVariable request.pageSize) client Log.empty).1 = .ok (.int size)
  entries : Bool → List (Entry Order)
  requests : Bool → List LedgerBook.Request
  reads : ∀ asks, ∃ log steps,
    outcome (consume steps (walkSide package request.clearingHouse (.given request.anchor) asks
      (.int size))) client log = (.ok (entries asks, .ended), log.requests ++ requests asks)

namespace Apart

variable {request : Request} (apart : Apart request client) (steady : Steady client)

def walk (asks : Bool) : Traversal (Entry Order) :=
  sideWalk apart.package request.clearingHouse request.anchor asks (.int apart.size)

/-- Whether a walk keeps to the anchor of the book and to its page size. -/
abbrev Kept (walk : Traversal (Entry Order)) : Prop :=
  KeepsTo request.anchor (.int (firstOf (.int apart.size))) walk

theorem walks_getElem (asks : Bool) :
    (request.walks apart.package (.int apart.size))[sideIndex asks]? = some (apart.walk asks) := by
  cases asks <;> rfl

include apart steady

theorem follows :
    (source client : Merge.Source (Traversal (Entry Order)) (Entry Order)).Follows (source client)
      apart.Kept :=
  follows_source (closed_pinned _ _) (steady.mono fun _ _ => trivial)

/-- As a source, each side comes out with its entries and its requests. -/
theorem comesOut (asks : Bool) :
    (source client).ComesOut (apart.walk asks) (apart.entries asks) (apart.requests asks)
      .exhausted := by
  obtain ⟨log, steps, reads⟩ := apart.reads asks
  have keeps : apart.Kept (apart.walk asks) :=
    keeps_sideWalk apart.package request.clearingHouse request.anchor asks rfl
  have drains : follow (outcome (drain steps (apart.walk asks)) client (asked log.requests))
      (fun found requests => (.ok (seenOf found), requests)) =
        ((.ok (apart.entries asks, .ended), log.requests ++ apart.requests asks) :
          Outcome (List (Entry Order) × Progress (Entry Order))) := by
    rw [← reads]
    exact (outcome_consume steps (.given request.anchor) (streamName asks)
      (fun strong => sideQuery apart.package request.clearingHouse strong asks (.int apart.size))
      (fun page => pure (page.entries Order.read))).symm
  rcases drained : outcome (drain steps (apart.walk asks)) client (asked log.requests) with
    ⟨failure | ⟨units, progress, rest⟩, requests⟩
  · rw [drained] at drains
    cases drains
  · rw [drained] at drains
    cases drains
    obtain ⟨made, same, out⟩ :=
      comesOut_of_drain (closed_pinned _ _) (steady.mono fun _ _ => trivial) keeps drained
    rwa [List.append_cancel_left same]

/-- The look-ups lead to the walks over both sides, whenever they are made. -/
theorem sides_eq (log : Log) :
    (outcome request.sides client log).1 =
      .ok (request.walks apart.package (.int apart.size)) := by
  have agree : Agree (Carries request.anchor) client client := steady.mono fun _ _ => trivial
  obtain ⟨result, made, here, there⟩ := request.confined_keyPackage.settled agree log Log.empty
  have finds : (outcome request.keyPackage client log).1 = .ok apart.package := by
    rw [here, ← apart.findsPackage, there]
  obtain ⟨between, _, goesOn⟩ := exists_outcome_bind (Prod.ext finds rfl)
    fun package => firstVariable request.pageSize >>= request.launch package
  have sized : (outcome (firstVariable request.pageSize) client between).1 =
      .ok (.int apart.size) := by
    rw [← apart.findsSize]
    exact steady.firstVariable request.pageSize between Log.empty
  obtain ⟨later, _, ends⟩ :=
    exists_outcome_bind (Prod.ext sized rfl) (request.launch apart.package)
  rw [request.sides_eq, goesOn, ends, request.outcome_launch]

theorem opens (log : Log) : ∃ first later, request.merge client log = .ok first later := by
  cases opened : request.merge client log with
  | ok first later => exact ⟨first, later, rfl⟩
  | error failure later =>
      have fails : (outcome request.merge client log).1 = .error failure := by
        rw [outcome, opened]
      rw [request.fails_iff, apart.sides_eq steady] at fails
      cases fails

theorem fresh {log later : Log} {first : Merge.State (Traversal (Entry Order)) (Entry Order)}
    (opened : request.merge client log = .ok first later) :
    Merge.Fresh (request.walks apart.package (.int apart.size)) first := by
  obtain ⟨walks, gives, fresh⟩ := request.fresh_of_merge opened
  have same := apart.sides_eq steady log
  rw [gives] at same
  rwa [← Except.ok.inj same]

end Apart

/-- The entries of maps as orders with their ids. -/
def orders (entries : List (Entry Order)) : List (OrderId × Order) :=
  entries.map fun entry => ((entry.1 : OrderId), entry.2)

namespace Apart

variable {request : Request} (apart : Apart request client)

/-- What a run of a book shows, with what each side has requested so far: the requests are those of
both sides, each side began to request and to deliver as it does alone, and it has requested and
delivered everything when the merged sequence is exhausted. -/
structure Shows (first : Merge.State (Traversal (Entry Order)) (Entry Order))
    (sent : Nat → List LedgerBook.Request) (passages : List (Merge.Passage (Entry Order)))
    (state : Merge.State (Traversal (Entry Order)) (Entry Order)) : Prop where
  all : state.log.requests.Perm (first.log.requests ++ (sent 0 ++ sent 1))
  requests : ∀ asks, sent (sideIndex asks) <+: apart.requests asks
  entries : ∀ asks, Merge.delivered (sideIndex asks) passages <+: apart.entries asks
  whole : state.consumer = .finished (some .exhausted) → ∀ asks,
    sent (sideIndex asks) = apart.requests asks ∧
      Merge.delivered (sideIndex asks) passages = apart.entries asks

section Runs

variable (steady : Steady client) {log later : Log}
  {first state : Merge.State (Traversal (Entry Order)) (Entry Order)}
  {passages : List (Merge.Passage (Entry Order))}
  (opened : request.merge client log = .ok first later)
  (run : Merge.Run (source client) first passages state)

include apart steady opened run

theorem exists_shows :
    ∃ sent, Merge.Sends (source client) first sent passages state ∧
      apart.Shows first sent passages state := by
  have fresh := apart.fresh steady opened
  have follows := apart.follows steady
  have begins : ∀ begin ∈ request.walks apart.package (.int apart.size), apart.Kept begin :=
    fun _ => request.keeps_walks apart.package apart.size
  obtain ⟨sent, sends⟩ := request.exists_sends fresh run
  -- Neither side knows of the other: each does what it does alone.
  have alone (asks : Bool) := sends.of_comesOut follows fresh begins (apart.walks_getElem asks)
    (apart.comesOut steady asks)
  refine ⟨sent, sends, sends.requests_perm fresh.length_sides, fun asks => (alone asks).2.1,
    fun asks => (alone asks).1, fun ends asks => ?_⟩
  have out := sends.comesOut_of_exhausted follows fresh begins ends (apart.walks_getElem asks)
  obtain ⟨sameEntries, sameRequests, _⟩ := out.unique (apart.comesOut steady asks)
  exact ⟨sameRequests, sameEntries⟩

theorem index_lt {entry : Nat × Merge.Message (Entry Order)}
    (seen : entry ∈ Merge.received passages) : entry.1 < 2 := by
  have fresh := apart.fresh steady opened
  refine run.index_lt fresh ?_
  rw [run.arrived_eq fresh.queue_eq]
  exact List.mem_append_left _ seen

theorem not_failed (failure : Failure) :
    state.consumer ≠ .finished (some (.failed failure)) := by
  intro ends
  have fresh := apart.fresh steady opened
  -- A merge fails with the failure of a side, and neither side has one.
  obtain ⟨index, seen, _⟩ := run.failures_of_failed fresh ends
  have within := apart.index_lt steady opened run seen
  obtain ⟨asks, rfl⟩ : ∃ asks, sideIndex asks = index := by
    match index, within with
    | 0, _ => exact ⟨true, rfl⟩
    | 1, _ => exact ⟨false, rfl⟩
  obtain ⟨sent, sends⟩ := request.exists_sends fresh run
  have alone := sends.of_comesOut (apart.follows steady) fresh
    (fun _ => request.keeps_walks apart.package apart.size) (apart.walks_getElem asks)
    (apart.comesOut steady asks)
  cases alone.2.2 _ (Merge.mem_messagesOf_iff.mpr seen)

/-- The merged entries are those that were delivered of each side. -/
theorem merged_perm :
    (Merge.merged passages).Perm
      (Merge.delivered (sideIndex true) passages ++ Merge.delivered (sideIndex false) passages) :=
  Merge.merged_perm fun _ seen => apart.index_lt steady opened run seen

theorem length_merged_le :
    (Merge.merged passages).length ≤
      (apart.entries true).length + (apart.entries false).length := by
  obtain ⟨_, _, shows⟩ := apart.exists_shows steady opened run
  rw [(apart.merged_perm steady opened run).length_eq, List.length_append]
  exact Nat.add_le_add (shows.entries true).length_le (shows.entries false).length_le

/-- On every schedule the book is read to its end, or left early. -/
theorem inevitably_over :
    Merge.Inevitably (source client) (fun later => ∃ outcome, later.consumer = .finished outcome)
      state := by
  have fresh := apart.fresh steady opened
  refine run.inevitably_over fresh (fun walk isOne => ?_)
    (fun others later runs => apart.length_merged_le steady opened runs)
  have keeps : apart.Kept walk := request.keeps_walks apart.package apart.size isOne
  have isSide : ∃ asks, walk = apart.walk asks := by
    rcases List.mem_cons.mp isOne with rfl | isOther
    · exact ⟨true, rfl⟩
    · exact ⟨false, List.mem_singleton.mp isOther⟩
  obtain ⟨asks, rfl⟩ := isSide
  exact (apart.follows steady).responds (rests_source client) keeps (apart.comesOut steady asks)

theorem perm_of_exhausted (ends : state.consumer = .finished (some .exhausted)) :
    (Merge.merged passages).Perm (apart.entries true ++ apart.entries false) := by
  obtain ⟨_, _, shows⟩ := apart.exists_shows steady opened run
  have merged := apart.merged_perm steady opened run
  rwa [(shows.whole ends true).2, (shows.whole ends false).2] at merged

/-- The folded book of a merged sequence that is exhausted is the sizes of both sides' entries. -/
theorem sums_of_exhausted (ends : state.consumer = .finished (some .exhausted)) :
    (fold (orders (Merge.merged passages))).Sums
      (orders (apart.entries true ++ apart.entries false)) :=
  (sums_fold _).of_perm ((apart.perm_of_exhausted steady opened run ends).map _)

end Runs

end Apart

/-! ## The result -/

/-- The folded book does not depend on the schedule. With a service whose answers depend on the
request only, and whose both sides can be read alone to their ends, a book can be opened at any
time. However its workers and its consumer then take turns, each side requests and delivers what it
does alone, in the same order, and the merged entries are those that its reader gets; the merged
sequence never fails, on every schedule it comes to its end or is left early, and it can be read to
its end. Then the folded book is the sizes of both
sides' entries by id, and the same mappings on every schedule.

For any entries whatsoever the folded book is their sizes by id, with no id on both sides and all
sizes in it, and their order does not matter. -/
theorem folded_book_of_any_schedule :
    (∀ (request : Request) (client : Client) (apart : Apart request client), Steady client →
        (∀ log, ∃ first later, request.merge client log = .ok first later) ∧
          (∀ log first later, request.merge client log = .ok first later →
            (∀ passages state, Merge.Run (source client) first passages state →
              (∃ sent, Merge.Sends (source client) first sent passages state ∧
                apart.Shows first sent passages state) ∧
              (∀ failure, state.consumer ≠ .finished (some (.failed failure))) ∧
              Merge.Inevitably (source client)
                (fun later => ∃ outcome, later.consumer = .finished outcome) state ∧
              (state.consumer = .finished (some .exhausted) →
                (fold (orders (Merge.merged passages))).Sums
                  (orders (apart.entries true ++ apart.entries false))) ∧
              (∃ items, Merge.HandsOver (source client) first passages items state) ∧
              ∀ items, Merge.HandsOver (source client) first passages items state →
                Merge.merged passages = items.map (·.2) ∧ ∀ asks,
                  Merge.delivered (sideIndex asks) passages =
                    (items.filter (·.1 == sideIndex asks)).map (·.2)) ∧
            ∃ passages state, Merge.Run (source client) first passages state ∧
              state.consumer = .finished (some .exhausted)) ∧
          ∀ log otherLog first otherFirst later otherLater passages others state otherState,
            request.merge client log = .ok first later →
            request.merge client otherLog = .ok otherFirst otherLater →
            Merge.Run (source client) first passages state →
            Merge.Run (source client) otherFirst others otherState →
            state.consumer = .finished (some .exhausted) →
            otherState.consumer = .finished (some .exhausted) →
            (fold (orders (Merge.merged passages))).SameMappings
              (fold (orders (Merge.merged others)))) ∧
      (∀ entries, (fold entries).Sums entries ∧
        ∀ id ∈ (fold entries).asks.ids, id ∉ (fold entries).bids.ids) ∧
      ∀ entries others : List (OrderId × Order), entries.Perm others →
        (fold entries).SameMappings (fold others) := by
  refine ⟨fun request client apart steady => ⟨apart.opens steady, ?_, ?_⟩,
    fun entries => ⟨sums_fold entries, (sums_fold entries).disjoint⟩,
    fun entries others perm => (sums_fold entries).sameMappings (sums_fold others) perm⟩
  · intro log first later opened
    refine ⟨fun passages state run => ⟨apart.exists_shows steady opened run,
      apart.not_failed steady opened run, apart.inevitably_over steady opened run,
      apart.sums_of_exhausted steady opened run, run.exists_handsOver,
      fun items hands => ⟨hands.merged_eq, fun asks => hands.delivered_eq (sideIndex asks)⟩⟩, ?_⟩
    have fresh := apart.fresh steady opened
    obtain ⟨passages, state, outcome, run, finished⟩ :=
      (apart.inevitably_over steady opened .start).exists_end fresh.stays .start
    cases outcome with
    | exhausted => exact ⟨passages, state, run, finished⟩
    | failed failure => exact absurd finished (apart.not_failed steady opened run failure)
  · intro log otherLog first otherFirst later otherLater passages others state otherState
      opened otherOpened run otherRun ends otherEnds
    exact (apart.sums_of_exhausted steady opened run ends).sameMappings
      (apart.sums_of_exhausted steady otherOpened otherRun otherEnds) (.refl _)

section Service

variable {fields : List Field} (splitting : Splitting fields) {size : Int}

/-- A setting with the service of a splitting, of which one side is read. -/
def Setting.ofSide (size : Int) (asks : Bool) : Setting fields :=
  { Setting.ofService splitting size with asks }

theorem served_ofSide (positive : 0 < size) (asks : Bool) :
    (Setting.ofSide splitting size asks).Served :=
  { Setting.served_ofService splitting positive with
    serves_side := splitting.service_serves_side _ _ _ _ _ _ _ _ rfl }

/-- The book of the clearing house of a setting. -/
def Setting.book (setting : Setting fields) : Request :=
  ⟨setting.clearingHouse, setting.anchor, setting.package, setting.pageSize⟩

/-- The service of a splitting shows its fields on both sides of a book. -/
def Apart.ofService (positive : 0 < size) :
    Apart (Setting.ofService splitting size).book (Setting.ofService splitting size).client where
  package := (Setting.ofService splitting size).package
  size
  findsPackage := rfl
  findsSize := congrArg Prod.fst (outcome_firstVariable_of_pos positive)
  entries _ := fields.flatMap (Field.entries Order.read)
  requests asks := (Setting.ofSide splitting size asks).sideRequests
  reads asks := by
    obtain ⟨bound, walks⟩ := (served_ofSide splitting positive asks).walkedSide
    exact ⟨Log.empty, bound, walks bound (Nat.le_refl bound)⟩

theorem Apart.entries_ofService (positive : 0 < size) (asks : Bool) :
    (Apart.ofService splitting positive).entries asks =
      fields.flatMap (Field.entries Order.read) :=
  rfl

end Service

/-- Three fields with one order, which both sides of a book show: read to the end, the folded book
has its size twice. -/
theorem folded_book_of_three_pages :
    let setting := Setting.ofService onThreePages 1
    ∃ first later passages state,
      setting.book.merge setting.client Log.empty = .ok first later ∧
        Merge.Run (source setting.client) first passages state ∧
        state.consumer = .finished (some .exhausted) ∧
        (fold (orders (Merge.merged passages))).asks.size? 7 = some 60 ∧
        (fold [(7, ⟨1, 30⟩), (8, ⟨1, 5⟩)]).SameMappings (fold [(8, ⟨1, 5⟩), (7, ⟨1, 30⟩)]) := by
  intro setting
  obtain ⟨opens, reads, _⟩ := folded_book_of_any_schedule.1 _ _
    (Apart.ofService onThreePages Int.zero_lt_one) (agree_service onThreePages "0x1" .null)
  obtain ⟨first, later, opened⟩ := opens Log.empty
  obtain ⟨shows, passages, state, run, ends⟩ := reads Log.empty first later opened
  have sums := (shows passages state run).2.2.2.1 ends
  refine ⟨first, later, passages, state, opened, run, ends, ?_,
    folded_book_of_any_schedule.2.2 _ _ (.swap _ _ _)⟩
  rw [sums.asks, Apart.entries_ofService, Apart.entries_ofService, entries_threeFields]
  rfl

end LedgerBook.Book
