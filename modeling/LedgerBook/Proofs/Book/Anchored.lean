import LedgerBook.Proofs.Book.Merging
import LedgerBook.Proofs.Book.Serving
/-!
One anchor and one page size for a whole read. Whatever the service answers, every page that a read
asks for carries the version of its anchor, or none if the anchor has none, and all of them the same
page size. What is read at a version is therefore decided by the answers to requests that carry this
version, and by nothing else.
-/
namespace LedgerBook.Book

open ReadM Paging Traversal

variable {α : Type} {client other : Client} {log : Log} {anchor : Anchor} {given size : Json}

/-! ## Requests of a whole read -/

/-- Whether a request carries exactly the version of an anchor, under the name that its query has
for it, or no version if the anchor has none. -/
def Carries (anchor : Anchor) (request : LedgerBook.Request) : Prop :=
  request.versions = anchor.named request.document.versionName

theorem carries_of_pinned {request : LedgerBook.Request} (pinned : request.Pinned anchor size) :
    Carries anchor request :=
  pinned.versions

/-- Requests of a single read at an anchor: pages, and at most one look-up of the page size and of
the package. Only the look-up of the page size carries nothing of the anchor. -/
structure Uniform (anchor : Anchor) (made : List LedgerBook.Request) : Prop where
  kinds : ∀ request ∈ made, request.document.isPaged = true ∨ request.document = .objectType ∨
    request = limitLookup
  carries : ∀ request ∈ made, request ≠ limitLookup → Carries anchor request
  bounded : ∀ request ∈ made, ∀ version ∈ request.versions,
    ∃ number : Nat, version.2 = .int number ∧ number < 2 ^ 53
  first : ∃ size : Int, ∀ request ∈ made, request.document.isPaged = true →
    request.first = .int size
  oneLimit : made.countP (·.document == .maxPageSize) ≤ 1
  onePackage : made.countP (·.document == .objectType) ≤ 1

/-- Versions are numbers of 53 bits. -/
theorem exists_version_of_mem_named {name : Text} {version : Text × Json}
    (sent : version ∈ anchor.named name) :
    ∃ number : Nat, version.2 = .int number ∧ number < 2 ^ 53 := by
  unfold Anchor.named at sent
  split at sent
  next number _ =>
    obtain rfl := List.mem_singleton.mp sent
    exact ⟨number.val, rfl, number.isLt⟩
  next => cases sent

section Parts

variable {packages limits paged : List LedgerBook.Request} {number : Int}

theorem countP_packages (isPackage : PackageLookups anchor packages) :
    packages.countP (·.document == .maxPageSize) = 0 ∧
      packages.countP (·.document == .objectType) ≤ 1 := by
  rcases isPackage with rfl | ⟨lookup, rfl, document, _⟩
  · exact ⟨rfl, Nat.zero_le 1⟩
  · rw [List.countP_singleton, List.countP_singleton, document]
    decide

theorem countP_limits (isLimit : LimitLookups limits) :
    limits.countP (·.document == .maxPageSize) ≤ 1 ∧
      limits.countP (·.document == .objectType) = 0 := by
  rcases isLimit with rfl | rfl <;> decide

theorem countP_paged (pinned : ∀ request ∈ paged, request.Pinned anchor size) (document : Document)
    (notPaged : document.isPaged = false) : paged.countP (·.document == document) = 0 := by
  rw [List.countP_eq_zero]
  intro request inside same
  have isPaged := (pinned request inside).isPaged
  rw [beq_iff_eq.mp same, notPaged] at isPaged
  cases isPaged

/-- Look-ups, and then pages at an anchor with one page size, are requests of a single read. -/
theorem Uniform.of_parts (isPackage : PackageLookups anchor packages)
    (isLimit : LimitLookups limits)
    (pinned : ∀ request ∈ paged, request.Pinned anchor (.int number)) :
    Uniform anchor (packages ++ (limits ++ paged)) := by
  -- Every request is the look-up of the package, that of the page size, or a page.
  have cases : ∀ request ∈ packages ++ (limits ++ paged),
      (request.document = .objectType ∧ Carries anchor request) ∨ request = limitLookup ∨
        request.Pinned anchor (.int number) := by
    intro request inside
    rcases List.mem_append.mp inside with early | later
    · rcases isPackage with rfl | ⟨lookup, rfl, document, versions⟩
      · cases early
      · obtain rfl := List.mem_singleton.mp early
        exact .inl ⟨document, versions⟩
    · rcases List.mem_append.mp later with between | late
      · rcases isLimit with rfl | rfl
        · cases between
        · exact .inr (.inl (List.mem_singleton.mp between))
      · exact .inr (.inr (pinned request late))
  have carries : ∀ request ∈ packages ++ (limits ++ paged), request ≠ limitLookup →
      Carries anchor request := by
    intro request inside notLimit
    rcases cases request inside with ⟨_, carries⟩ | same | isPinned
    · exact carries
    · exact absurd same notLimit
    · exact carries_of_pinned isPinned
  obtain ⟨noLimit, onePackage⟩ := countP_packages isPackage
  obtain ⟨oneLimit, noPackage⟩ := countP_limits isLimit
  refine ⟨fun request inside => ?_, carries, fun request inside version sent => ?_,
    ⟨number, fun request inside isPaged => ?_⟩, ?_, ?_⟩
  · rcases cases request inside with ⟨document, _⟩ | same | isPinned
    · exact .inr (.inl document)
    · exact .inr (.inr same)
    · exact .inl isPinned.isPaged
  · by_cases isLimit : request = limitLookup
    · subst isLimit
      cases sent
    · rw [carries request inside isLimit] at sent
      exact exists_version_of_mem_named sent
  · rcases cases request inside with ⟨document, _⟩ | rfl | isPinned
    · rw [document] at isPaged
      cases isPaged
    · cases isPaged
    · exact isPinned.first
  · rw [List.countP_append, List.countP_append, noLimit, countP_paged pinned .maxPageSize rfl]
    omega
  · rw [List.countP_append, List.countP_append, noPackage, countP_paged pinned .objectType rfl]
    omega

end Parts

/-! ## Reads of one map or one side -/

theorem requests_announced (steps : Nat) (anchor : Anchor) (stream : Json)
    (opening : Anchor → ReadM Query) [∀ strong, Orderly (opening strong)]
    (view : Page → Except Failure (List α)) :
    (outcome
        (consume steps do
          let strong ← announce (.given anchor) stream
          return Traversal.new (opening strong) view stream) client log).2 =
      (outcome (drain steps (Traversal.new (opening anchor) view stream)) client
        (asked log.requests)).2 := by
  rw [outcome_consume]
  change (follow (outcome (drain steps _) client _) _).2 = _
  rcases outcome (drain steps (Traversal.new (opening anchor) view stream)) client
    (asked log.requests) with ⟨failure | found, requests⟩ <;> rfl

/-- After any number of its steps, a walk that was announced has sent requests of a single read. -/
theorem uniform_announced {opening : Anchor → ReadM Query} [∀ strong, Orderly (opening strong)]
    (opens : Opens anchor given (opening anchor)) (view : Page → Except Failure (List α))
    (stream : Json) (steps : Nat) (client : Client) (log : Log) :
    ∃ made,
      (outcome
          (consume steps do
            let strong ← announce (.given anchor) stream
            return Traversal.new (opening strong) view stream) client log).2 =
        log.requests ++ made ∧ Uniform anchor made := by
  rw [requests_announced]
  obtain ⟨limits, paged, asks, isLimit, pages⟩ :=
    opens.requests_drain view stream steps client (asked log.requests)
  obtain ⟨number, pinned⟩ := pages.exists_pinned
  exact ⟨limits ++ paged, asks, Uniform.of_parts (.inl rfl) isLimit pinned⟩

/-- So has a map that is read as a whole. -/
theorem requests_readMap (limit : Nat) (map : Json) (value : Bcs.Reader α) (given : Json)
    (client : Client) (log : Log) :
    ∃ limits paged, (outcome (readMap limit map (.given anchor) value given) client log).2 =
        log.requests ++ (limits ++ paged) ∧ LimitLookups limits ∧
      PagesOf client (asked log.requests) anchor given paged := by
  have opens := opens_mapQuery map anchor given
  obtain ⟨limits, asks, isLimit⟩ := opens.requests client (asked log.requests)
  have reads : (outcome (readMap limit map (.given anchor) value given) client log).2 =
      (outcome (mapQuery map anchor given >>= fun query => readAll limit query) client
        (asked log.requests)).2 := by
    unfold readMap
    rw [outcome_bind, outcome_announce]
    change (outcome (mapQuery map anchor given >>= fun query => readAll limit query >>= _) client
      (asked log.requests)).2 = _
    rw [← bind_assoc, requests_bind _ fun _ => .of_pure _]
  rw [reads]
  rcases outcome_bind_cases (mapQuery map anchor given) _ client (asked log.requests) with
    ⟨failure, _, stops⟩ | ⟨query, later, found, left, goesOn⟩
  · refine ⟨limits, [], ?_, isLimit, .none⟩
    rw [stops, List.append_nil]
    exact asks
  · obtain ⟨number, sized, pinned⟩ := opens.exists_of_query found
    obtain ⟨paged, sends, isOne⟩ :=
      ((closed_pinned anchor (.int number)).readAll limit pinned).sends client later
    refine ⟨limits, paged, ?_, isLimit, .sized sized isOne⟩
    rw [goesOn, sends, left, asks, List.append_assoc]
    rfl

theorem uniform_readMap (limit : Nat) (map : Json) (value : Bcs.Reader α) (given : Json)
    (client : Client) (log : Log) :
    ∃ made, (outcome (readMap limit map (.given anchor) value given) client log).2 =
      log.requests ++ made ∧ Uniform anchor made := by
  obtain ⟨limits, paged, asks, isLimit, pages⟩ :=
    requests_readMap limit map value given client log
  obtain ⟨number, pinned⟩ := pages.exists_pinned
  exact ⟨limits ++ paged, asks, Uniform.of_parts (.inl rfl) isLimit pinned⟩

/-! ## Reads of a book -/

namespace Request

variable (request : Request)

theorem uniform_opening (client : Client) (log : Log) :
    ∃ made, (outcome request.merge client log).2 = log.requests ++ made ∧
      Uniform request.anchor made := by
  obtain ⟨packages, limits, asks, isPackage, isLimit, _⟩ := request.sides_spec client log
  have nothing : ∀ page ∈ ([] : List LedgerBook.Request), page.Pinned request.anchor (.int 0) :=
    List.forall_mem_nil _
  refine ⟨packages ++ (limits ++ []), ?_, Uniform.of_parts isPackage isLimit nothing⟩
  rw [List.append_nil, requests_merge]
  exact asks

/-- In whatever order the workers and the consumer of a book take their steps, they send requests of
a single read. -/
theorem uniform_book {client : Client} {log later : Log}
    {first state : Merge.State (Traversal (Entry Order)) (Entry Order)}
    {passages : List (Merge.Passage (Entry Order))}
    (opened : request.merge client log = .ok first later)
    (run : Merge.Run (source client) first passages state) :
    ∃ made, state.log.requests = log.requests ++ made ∧ Uniform request.anchor made := by
  obtain ⟨walks, gives, fresh⟩ := request.fresh_of_merge opened
  obtain ⟨packages, limits, asked, isPackage, isLimit, launched⟩ := request.sides_spec client log
  rw [gives] at asked launched
  obtain ⟨package, number, rfl⟩ := launched walks rfl
  obtain ⟨_, paged, asks, pinned⟩ :=
    run.confined (confined_source (closed_pinned _ _) client) (request.keeps_sides fresh)
  refine ⟨packages ++ (limits ++ paged), ?_, Uniform.of_parts isPackage isLimit pinned⟩
  calc
    state.log.requests
      = log.requests ++ (packages ++ limits) ++ paged := by
          rw [asks]
          exact congrArg (· ++ paged) asked
    _ = log.requests ++ (packages ++ (limits ++ paged)) := by
          rw [List.append_assoc, List.append_assoc]

end Request

/-- The requests that were sent, from a log on, when a read at an anchor has gone some way: a walk
over a map or over a side after any number of steps, a map that is read as a whole, up to any number
of pages, a book that is opened, and a book whose workers and consumer have taken any steps. -/
inductive Sent (client : Client) (log : Log) (anchor : Anchor) : List LedgerBook.Request → Prop
  | map {α : Type} (steps : Nat) (map : Json) (value : Bcs.Reader α) (given stream : Json) :
      Sent client log anchor
        (outcome (consume steps (walkMap map (.given anchor) value given stream)) client log).2
  | orders (steps : Nat) (map given stream : Json) :
      Sent client log anchor
        (outcome (consume steps (walkOrders map (.given anchor) given stream)) client log).2
  | whole {α : Type} (limit : Nat) (map : Json) (value : Bcs.Reader α) (given : Json) :
      Sent client log anchor
        (outcome (readMap limit map (.given anchor) value given) client log).2
  | side (steps : Nat) (package house : Json) (asks : Bool) (given : Json) :
      Sent client log anchor
        (outcome (consume steps (walkSide package house (.given anchor) asks given)) client log).2
  | opening (house package given : Json) :
      Sent client log anchor
        (outcome (Request.mk house anchor package given).merge client log).2
  | book {house package given : Json} {later : Log}
      {first state : Merge.State (Traversal (Entry Order)) (Entry Order)}
      {passages : List (Merge.Passage (Entry Order))} :
      (Request.mk house anchor package given).merge client log = .ok first later →
      Merge.Run (source client) first passages state →
      Sent client log anchor state.log.requests

theorem Sent.uniform {requests : List LedgerBook.Request} (sent : Sent client log anchor requests) :
    ∃ made, requests = log.requests ++ made ∧ Uniform anchor made := by
  cases sent with
  | map steps map value given stream =>
      exact uniform_announced (opens_mapQuery map anchor given) _ stream steps client log
  | orders steps map given stream =>
      exact uniform_announced (opens_mapQuery map anchor given) _ stream steps client log
  | whole limit map value given => exact uniform_readMap limit map value given client log
  | side steps package house asks given =>
      exact uniform_announced (opens_sideQuery package house anchor asks given) _ _ steps client log
  | opening house package given => exact Request.uniform_opening _ client log
  | book opened run => exact Request.uniform_book _ opened run

/-! ## Reads at a version -/

/-- Whether a read gives the same with two clients, and sends the same requests to both, whatever
was asked before. -/
def Alike (program : ReadM α) (client other : Client) : Prop :=
  ∀ log otherLog, ∃ result made,
    outcome program client log = (result, log.requests ++ made) ∧
      outcome program other otherLog = (result, otherLog.requests ++ made)

theorem confined_carries {program : ReadM α} {good : α → Prop} (size : Json)
    (confined : Confined (Request.Pinned anchor size) program good) :
    Confined (Carries anchor) program good :=
  confined.widen fun _ => carries_of_pinned

theorem confined_consume {opening : Anchor → ReadM Query}
    (opens : Opens anchor given (opening anchor)) (isGiven : given.isNull = false)
    (view : Page → Except Failure (List α)) (stream : Json) (steps : Nat) :
    Confined (Carries anchor)
      (consume steps do
        let strong ← announce (.given anchor) stream
        return Traversal.new (opening strong) view stream)
      fun _ => True := by
  have closed := closed_pinned anchor (.int (firstOf given))
  refine confined_carries (.int (firstOf given)) ?_
  unfold consume
  refine (confined_announced opens isGiven view stream).of_attempt.bind fun made keeps => ?_
  cases made with
  | error failure => exact Confined.of_pure trivial
  | ok walk => exact ((keeps walk rfl).drain closed steps).bind fun _ _ => Confined.of_pure trivial

theorem confined_readMap (limit : Nat) (map : Json) (value : Bcs.Reader α)
    (isGiven : given.isNull = false) :
    Confined (Carries anchor) (readMap limit map (.given anchor) value given) fun _ => True := by
  refine confined_carries (.int (firstOf given)) ?_
  unfold readMap
  refine (confined_announce anchor .null).bind fun strong same => ?_
  subst same
  refine ((opens_mapQuery map strong given).confined isGiven).bind fun query pinned => ?_
  refine ((closed_pinned strong _).readAll limit pinned).bind fun pages _ => ?_
  exact Confined.of_pure trivial

theorem confined_typeOf (object : Json) (anchor : Anchor) :
    Confined (Carries anchor) (Lookup.typeOf object (.given anchor)) fun _ => True := by
  rw [Lookup.typeOf_eq]
  refine (Confined.of_anyLift _).bind fun address _ => ?_
  have asks : Confined (Carries anchor) _ fun _ => True :=
    confined_content .objectType _ (versions_typeLookup address anchor)
  exact asks.bind fun data _ => Confined.of_anyLift _

namespace Request

variable (request : Request)

theorem confined_keyPackage :
    Confined (Carries request.anchor) request.keyPackage fun _ => True := by
  unfold Request.keyPackage
  split
  next =>
    have finds : Confined (Carries request.anchor)
        (Lookup.packageOf request.clearingHouse (.given request.anchor)) fun _ => True := by
      rw [Lookup.packageOf_eq]
      exact (confined_typeOf request.clearingHouse request.anchor).bind fun found _ =>
        Confined.of_anyLift _
    rw [map_eq_pure_bind]
    exact (finds.of_mapFailure _).bind fun _ _ => Confined.of_pure trivial
  next => exact Confined.of_pure trivial

/-- The look-ups of a book that is given its page size lead to walks with this page size. -/
theorem confined_sides (isGiven : request.pageSize.isNull = false) :
    Confined (Carries request.anchor) request.sides fun walks =>
      ∃ package, walks = request.walks package (.int (firstOf request.pageSize)) := by
  rw [sides_eq]
  refine request.confined_keyPackage.bind fun package _ => ?_
  refine (confined_firstVariable isGiven).bind fun first same => ?_
  subst same
  refine .of_silent (.ok (request.walks package (.int (firstOf request.pageSize))))
    (fun _ _ => request.outcome_launch package _) fun walks same => ?_
  exact ⟨package, (Except.ok.inj same).symm⟩

/-- Whether a book gives the same with two clients, whatever was asked before: it is opened with
both or with neither, and in any two runs what the consumer has received of a side so far, its
entries and how the side ended, begins in the same way. Of books that are read to the end, each side
has the same entries. -/
structure ReadAlike (client other : Client) : Prop where
  fails : ∀ log otherLog failure, (outcome request.merge client log).1 = .error failure ↔
    (outcome request.merge other otherLog).1 = .error failure
  begins : ∀ {log otherLog later otherLater first otherFirst passages others state otherState},
    request.merge client log = .ok first later →
    request.merge other otherLog = .ok otherFirst otherLater →
    Merge.Run (source client) first passages state →
    Merge.Run (source other) otherFirst others otherState →
    ∀ index < 2,
      Merge.messagesOf index (Merge.received passages) <+:
          Merge.messagesOf index (Merge.received others) ∨
        Merge.messagesOf index (Merge.received others) <+:
          Merge.messagesOf index (Merge.received passages)
  agrees : ∀ {log otherLog later otherLater first otherFirst passages others state otherState},
    request.merge client log = .ok first later →
    request.merge other otherLog = .ok otherFirst otherLater →
    Merge.Run (source client) first passages state →
    Merge.Run (source other) otherFirst others otherState →
    state.consumer = .finished (some .exhausted) →
    otherState.consumer = .finished (some .exhausted) →
    ∀ index < 2, Merge.delivered index passages = Merge.delivered index others

/-- Books that are opened with two clients have the same walks, and in any two runs the requests of
each side can be remembered. -/
theorem exists_sends_of_agree (agree : Agree (Carries request.anchor) client other)
    (isGiven : request.pageSize.isNull = false) {log otherLog later otherLater : Log}
    {first otherFirst state otherState : Merge.State (Traversal (Entry Order)) (Entry Order)}
    {passages others : List (Merge.Passage (Entry Order))}
    (opened : request.merge client log = .ok first later)
    (otherOpened : request.merge other otherLog = .ok otherFirst otherLater)
    (run : Merge.Run (source client) first passages state)
    (otherRun : Merge.Run (source other) otherFirst others otherState) :
    ∃ package number sent otherSent,
      Merge.Fresh (request.walks package (.int number)) first ∧
        Merge.Fresh (request.walks package (.int number)) otherFirst ∧
        Merge.Sends (source client) first sent passages state ∧
        Merge.Sends (source other) otherFirst otherSent others otherState := by
  obtain ⟨walks, gives, fresh⟩ := request.fresh_of_merge opened
  obtain ⟨otherWalks, otherGives, otherFresh⟩ := request.fresh_of_merge otherOpened
  -- Both books are opened with look-ups that give the same.
  obtain ⟨result, made, here, there⟩ := (request.confined_sides isGiven).settled agree log otherLog
  have same : result = .ok walks := congrArg Prod.fst (here.symm.trans gives)
  have otherSame : result = .ok otherWalks := congrArg Prod.fst (there.symm.trans otherGives)
  obtain rfl := Except.ok.inj (same.symm.trans otherSame)
  obtain ⟨package, rfl⟩ :=
    (request.confined_sides isGiven).gives client log walks (congrArg Prod.fst gives)
  obtain ⟨sent, sends⟩ := request.exists_sends fresh run
  obtain ⟨otherSent, otherSends⟩ := request.exists_sends otherFresh otherRun
  exact ⟨package, _, sent, otherSent, fresh, otherFresh, sends, otherSends⟩

theorem readAlike (agree : Agree (Carries request.anchor) client other)
    (isGiven : request.pageSize.isNull = false) : request.ReadAlike client other := by
  -- The walks over both books do what they do with the first client, which agrees with itself.
  have follows (number : Int) {client other : Client}
      (agree : Agree (Carries request.anchor) client other) :
      (source other : Merge.Source (Traversal (Entry Order)) (Entry Order)).Follows (source client)
        (KeepsTo request.anchor (.int (firstOf (.int number)))) :=
    follows_source (closed_pinned request.anchor _) (agree.mono fun _ => carries_of_pinned)
  have begins (package : Json) (number : Int) {index : Nat} (within : index < 2) :
      (request.walks package (.int number))[index]? =
        some (request.walks package (.int number))[index] :=
    List.getElem?_eq_getElem within
  refine ⟨fun log otherLog failure => ?_, ?_, ?_⟩
  · obtain ⟨result, made, here, there⟩ :=
      (request.confined_sides isGiven).settled agree log otherLog
    rw [request.fails_iff, request.fails_iff, here, there]
  · intro log otherLog later otherLater first otherFirst passages others state otherState
      opened otherOpened run otherRun index within
    obtain ⟨package, number, sent, otherSent, fresh, otherFresh, sends, otherSends⟩ :=
      request.exists_sends_of_agree agree isGiven opened otherOpened run otherRun
    exact sends.comparable (follows number agree.self) (follows number agree)
      (fun _ => request.keeps_walks package number) fresh otherFresh otherSends
      (begins package number within)
  · intro log otherLog later otherLater first otherFirst passages others state otherState
      opened otherOpened run otherRun ends otherEnds index within
    obtain ⟨package, number, sent, otherSent, fresh, otherFresh, sends, otherSends⟩ :=
      request.exists_sends_of_agree agree isGiven opened otherOpened run otherRun
    exact sends.delivered_eq (follows number agree.self) (follows number agree)
      (fun _ => request.keeps_walks package number) fresh otherFresh otherSends ends otherEnds
      (begins package number within)

end Request

/-! ## The result -/

/-- Reads keep to their anchor and to one page size. Whatever the service answers, and however far a
read at an anchor has gone, its requests are those of a single read: all pages carry exactly the
version of the anchor and one page size, and each look-up was made at most once.

So what is read at a version with a page size that is given depends only on the answers to requests
that carry this version. With two clients that agree on these, each with one answer to each of them,
every walk, every eager read and each side of a book give the same, whatever else differs. -/
theorem reads_keep_to_anchor (anchor : Anchor) :
    (∀ client log requests, Sent client log anchor requests →
        ∃ made, requests = log.requests ++ made ∧ Uniform anchor made) ∧
      ∀ client other given, Agree (Carries anchor) client other → given.isNull = false →
        (∀ {α : Type} (steps : Nat) (map : Json) (value : Bcs.Reader α) (stream : Json),
            Alike (consume steps (walkMap map (.given anchor) value given stream)) client other) ∧
          (∀ (steps : Nat) (map stream : Json),
            Alike (consume steps (walkOrders map (.given anchor) given stream)) client other) ∧
          (∀ {α : Type} (limit : Nat) (map : Json) (value : Bcs.Reader α),
            Alike (readMap limit map (.given anchor) value given) client other) ∧
          (∀ (steps : Nat) (package house : Json) (asks : Bool),
            Alike (consume steps (walkSide package house (.given anchor) asks given)) client
              other) ∧
          ∀ house package : Json,
            (Request.mk house anchor package given).ReadAlike client other := by
  refine ⟨fun client log requests sent => sent.uniform,
    fun client other given agree isGiven => ⟨?_, ?_, ?_, ?_, ?_⟩⟩
  · intro α steps map value stream
    exact (confined_consume (opens_mapQuery map anchor given) isGiven _ stream steps).settled agree
  · intro steps map stream
    exact (confined_consume (opens_mapQuery map anchor given) isGiven _ stream steps).settled agree
  · intro α limit map value
    exact (confined_readMap limit map value isGiven).settled agree
  · intro steps package house asks
    have opens := opens_sideQuery package house anchor asks given
    exact (confined_consume opens isGiven _ (streamName asks) steps).settled agree
  · intro house package
    exact Request.readAlike _ agree isGiven

/-- Whether a request carries a version, and no other. -/
def isAt (version : Version) (request : LedgerBook.Request) : Bool :=
  match request.versions with
  | [(_, .int sent)] => sent == version.val
  | _ => false

theorem isAt_of_carries {version : Version} {request : LedgerBook.Request}
    (carries : Carries ⟨some version⟩ request) : isAt version request = true := by
  rw [Carries] at carries
  rw [isAt, carries]
  exact beq_self_eq_true _

/-- A service that shows at a version what another one shows, and has a new answer for every other
request. -/
def moving (version : Version) (still : Client) : Client where
  answer requests :=
    if requests.getLast?.any (isAt version) then still.answer requests
    else .error (.anchorRange requests.length)
  pageSize := .str "moving"

theorem agree_service {kind : LedgerBook.Request → Prop} {fields : List Field}
    (splitting : Splitting fields) (address : Text) (size : Json) :
    Agree kind (splitting.service address size) (splitting.service address size) := by
  intro earlier otherEarlier request _
  simp only [Splitting.service, List.getLast?_concat]

theorem agree_moving {fields : List Field} (splitting : Splitting fields) (address : Text)
    (size : Json) (version : Version) :
    Agree (Carries ⟨some version⟩) (splitting.service address size)
      (moving version (splitting.service address size)) := by
  intro earlier otherEarlier request carries
  have shows : (moving version (splitting.service address size)).answer
      (otherEarlier ++ [request]) =
        (splitting.service address size).answer (otherEarlier ++ [request]) := by
    refine if_pos ?_
    rw [List.getLast?_concat]
    exact isAt_of_carries carries
  rw [shows]
  exact agree_service splitting address size earlier otherEarlier request carries

/-- Three fields on three pages, read at a version from a service that shows something else for
every other request, after a request that was none of the read. -/
theorem reads_keep_to_anchor_of_moving_service :
    let service := moving 7 (onThreePages.service "0x1" .null)
    let log := asked [limitLookup]
    ∃ bound, ∀ steps, bound ≤ steps → ∃ made,
      outcome (consume steps (walkSide (.str "0x2") (.str "0x3") (.given ⟨some 7⟩) true (.int 1)))
          service log = (.ok ([(7, ⟨1, 30⟩)], .ended), limitLookup :: made) ∧
        Uniform ⟨some 7⟩ made := by
  intro service log
  have keeps := reads_keep_to_anchor ⟨some 7⟩
  obtain ⟨bound, walks⟩ :=
    (Setting.served_ofService onThreePages Int.zero_lt_one).walkedSide
  refine ⟨bound, fun steps enough => ?_⟩
  obtain ⟨_, _, _, alike, _⟩ := keeps.2 (onThreePages.service "0x1" .null) service (.int 1)
    (agree_moving onThreePages "0x1" .null 7) rfl
  obtain ⟨result, made, here, there⟩ :=
    alike steps (.str "0x2") (.str "0x3") true Log.empty log
  obtain ⟨sent, requested, uniform⟩ :=
    keeps.1 service log _ (.side steps (.str "0x2") (.str "0x3") true (.int 1))
  have still := (walks steps enough).symm.trans here
  rw [there] at requested
  have same : made = sent := List.append_cancel_left requested
  refine ⟨made, there.trans ?_, same ▸ uniform⟩
  have gives : result = _ := (congrArg Prod.fst still).symm
  rw [gives, entries_threeFields]
  rfl

end LedgerBook.Book
