import LedgerBook.Proofs.Book.Queries
import LedgerBook.Proofs.Paging.Confined
import LedgerBook.Proofs.Query
/-!
How the reads of a book begin, in requests: at most one look-up of the page size, at most one of the
package, and then a first query at the anchor with a page size that is known. From there on a walk
keeps to that anchor and that page size.
-/
namespace LedgerBook.Book

open ReadM Paging Traversal

variable {α β : Type} {client : Client} {log : Log} {kind : LedgerBook.Request → Prop}
  {anchor : Anchor} {given size : Json}

/-! ## Look-ups -/

/-- The request for the most entries of a page that the service gives. -/
def limitLookup : LedgerBook.Request :=
  ⟨.maxPageSize, []⟩

/-- Whether some requests are those that find the page size: one look-up, or none. -/
def LimitLookups (made : List LedgerBook.Request) : Prop :=
  made = [] ∨ made = [limitLookup]

/-- Whether some requests are those that find the package of a clearing house at an anchor: one
look-up with the anchor's version, or none. -/
def PackageLookups (anchor : Anchor) (made : List LedgerBook.Request) : Prop :=
  made = [] ∨ ∃ lookup : LedgerBook.Request, made = [lookup] ∧ lookup.document = .objectType ∧
    lookup.versions = anchor.named lookup.document.versionName

/-- Whether a read sends no requests. -/
def Silent (program : ReadM α) : Prop :=
  ∀ client log, (outcome program client log).2 = log.requests

theorem Silent.of_pure (value : α) : Silent (pure value) :=
  fun _ _ => by rw [outcome_pure]

theorem Silent.of_lift (result : Except Failure α) : Silent (liftM result : ReadM α) :=
  fun _ _ => by rw [outcome_lift]

/-- What asks nothing further adds no requests. -/
theorem requests_bind (program : ReadM α) {next : α → ReadM β}
    (silent : ∀ value, Silent (next value)) :
    (outcome (program >>= next) client log).2 = (outcome program client log).2 := by
  rcases outcome_bind_cases program next client log with
    ⟨failure, _, stops⟩ | ⟨value, later, _, left, goesOn⟩
  · rw [stops]
  · rw [goesOn, silent, left]

theorem Silent.bind {program : ReadM α} {next : α → ReadM β} (silent : Silent program)
    (rest : ∀ value, Silent (next value)) : Silent (program >>= next) := by
  intro client log
  rw [requests_bind program rest, silent]

theorem requests_content (document : Document) (arguments : Json.Members) :
    (outcome (Lookup.content document arguments) client log).2 =
      log.requests ++ [⟨document, arguments⟩] := by
  unfold Lookup.content
  rw [requests_bind _ fun envelope => .of_lift _, outcome_ask]

theorem confined_content (document : Document) (arguments : Json.Members)
    (isOne : kind ⟨document, arguments⟩) :
    Confined kind (Lookup.content document arguments) fun _ => True :=
  (Confined.of_ask isOne).bind fun _ _ => Confined.of_anyLift _

theorem requests_sizeOf (size : Json) :
    ∃ made, (outcome (Lookup.sizeOf size) client log).2 = log.requests ++ made ∧
      LimitLookups made := by
  cases size with
  | null =>
      refine ⟨[limitLookup], ?_, .inr rfl⟩
      have limit (limit : Json) : Silent (Lookup.limitOf limit) := by
        unfold Lookup.limitOf
        split
        · exact fun _ _ => rfl
        · exact .of_lift _
      rw [Lookup.sizeOf, Lookup.serviceLimit_eq, requests_bind _ fun data => limit _,
        requests_content]
      rfl
  | _ =>
      refine ⟨[], ?_, .inl rfl⟩
      rw [Lookup.sizeOf, outcome_lift, List.append_nil]
      exact Json.noConfusion

/-- What is found for the variable of the page size is a number, the page size. -/
theorem exists_of_firstVariable {first : Json}
    (found : (outcome (firstVariable given) client log).1 = .ok first) :
    ∃ number, (outcome (Lookup.pageSize given) client log).1 = .ok number ∧
      first = .int number := by
  rw [firstVariable_eq, duringFirstPage, outcome_bind, outcome_mapFailure] at found
  rcases sized : outcome (Lookup.pageSize given) client log with ⟨failure | number, made⟩
  · rw [sized] at found
    cases found
  · rw [sized] at found
    cases found
    exact ⟨number, rfl, rfl⟩

/-- Finding the page size takes at most one look-up. -/
theorem requests_firstVariable (given : Json) (client : Client) (log : Log) :
    ∃ made, (outcome (firstVariable given) client log).2 = log.requests ++ made ∧
      LimitLookups made := by
  rw [firstVariable_eq, requests_bind _ fun number => .of_pure _, duringFirstPage,
    outcome_mapFailure, Lookup.pageSize_eq, outcome_bind]
  exact requests_sizeOf _

/-- The page size of a read that is given one; zero if it is refused. -/
def firstOf (given : Json) : Int :=
  match Lookup.checkedPageSize given with
  | .ok size => size
  | .error _ => 0

/-- The page size that a read asks for: the one given to it, else the one of the client. -/
def sizeAsked (client : Client) (given : Json) : Json :=
  if given.isNull then client.pageSize else given

theorem sizeAsked_of_given (isGiven : given.isNull = false) : sizeAsked client given = given :=
  if_neg (by rw [isGiven]; exact Bool.false_ne_true)

/-- A page size that is asked for is checked, and needs no look-up. -/
theorem outcome_pageSize_of_asked (asks : sizeAsked client given = size)
    (isSize : size.isNull = false) :
    outcome (Lookup.pageSize given) client log = (Lookup.checkedPageSize size, log.requests) := by
  rw [Lookup.pageSize_eq, outcome_bind]
  change outcome (Lookup.sizeOf (sizeAsked client given)) client (asked log.requests) = _
  rw [asks, Lookup.sizeOf, outcome_lift]
  · rfl
  · rintro rfl
    cases isSize

theorem outcome_pageSize_of_given (isGiven : given.isNull = false) :
    outcome (Lookup.pageSize given) client log = (Lookup.checkedPageSize given, log.requests) :=
  outcome_pageSize_of_asked (sizeAsked_of_given isGiven) isGiven

theorem confined_firstVariable (isGiven : given.isNull = false) :
    Confined kind (firstVariable given) fun first => first = .int (firstOf given) := by
  rw [firstVariable_eq]
  have found : Confined kind (duringFirstPage (Lookup.pageSize given)) fun number =>
      Lookup.checkedPageSize given = .ok number :=
    (Confined.of_silent _ (fun _ _ => outcome_pageSize_of_given isGiven)
      fun _ same => same).of_mapFailure _
  refine found.bind fun number same => Confined.of_pure ?_
  rw [firstOf, same]

theorem versions_typeLookup (address : String) (anchor : Anchor) :
    (Lookup.typeLookup address anchor).versions = anchor.named "version" :=
  anchor.versions_present "version" rfl

theorem requests_typeOf (object : Json) (anchor : Anchor) (client : Client) (log : Log) :
    ∃ made, (outcome (Lookup.typeOf object (.given anchor)) client log).2 =
      log.requests ++ made ∧ PackageLookups anchor made := by
  rw [Lookup.typeOf_eq]
  cases canonical : Address.canonical object with
  | error failure => exact ⟨[], (List.append_nil _).symm, .inl rfl⟩
  | ok address =>
      refine ⟨_, ?_, .inr ⟨_, rfl, rfl, versions_typeLookup address anchor⟩⟩
      change (outcome (Lookup.content .objectType _ >>= _) client log).2 = _
      rw [requests_bind _ fun data => .of_lift _, requests_content]
      rfl

/-- Finding the package takes at most one look-up, with the version of the anchor. -/
theorem requests_keyPackage (request : Request) (client : Client) (log : Log) :
    ∃ made, (outcome request.keyPackage client log).2 = log.requests ++ made ∧
      PackageLookups request.anchor made := by
  unfold Request.keyPackage
  split
  next =>
    have found : (outcome (Json.str <$> duringFirstPage
        (Lookup.packageOf request.clearingHouse (.given request.anchor))) client log).2 =
          (outcome (Lookup.typeOf request.clearingHouse (.given request.anchor)) client log).2 := by
      rw [map_eq_pure_bind, requests_bind _ fun package => .of_pure _, duringFirstPage,
        outcome_mapFailure, Lookup.packageOf_eq, requests_bind _ fun found => .of_lift _]
    rw [found]
    exact requests_typeOf request.clearingHouse request.anchor client log
  next => exact ⟨[], by rw [outcome_pure, List.append_nil], .inl rfl⟩

/-! ## Walks at an anchor -/

theorem closed_pinned (anchor : Anchor) (size : Json) :
    Query.Closed (Request.Pinned anchor size) (Query.Pinned anchor size) where
  requests _ _ pinned made := pinned.asks made
  continues _ _ _ _ pinned goesOn := pinned.continuation goesOn

/-- Whether a walk keeps to the version of an anchor and a page size. -/
abbrev KeepsTo (anchor : Anchor) (size : Json) (walk : Traversal α) : Prop :=
  walk.Keeps (Request.Pinned anchor size) (Query.Pinned anchor size)

/-- Pages that are asked for once the page size is found: all at an anchor and of that size, or none
at all. -/
inductive PagesOf (client : Client) (log : Log) (anchor : Anchor) (given : Json) :
    List LedgerBook.Request → Prop
  | none : PagesOf client log anchor given []
  | sized {number : Int} {paged : List LedgerBook.Request} :
      (outcome (Lookup.pageSize given) client log).1 = .ok number →
      (∀ request ∈ paged, request.Pinned anchor (.int number)) →
      PagesOf client log anchor given paged

theorem PagesOf.exists_pinned {paged : List LedgerBook.Request}
    (pages : PagesOf client log anchor given paged) :
    ∃ number : Int, ∀ request ∈ paged, request.Pinned anchor (.int number) := by
  cases pages with
  | none => exact ⟨0, List.forall_mem_nil _⟩
  | sized _ pinned => exact ⟨_, pinned⟩

/-- A read finds the page size, and then makes a query of it at an anchor without further
requests. -/
def Opens (anchor : Anchor) (given : Json) (opening : ReadM Query) : Prop :=
  ∃ next : Json → ReadM Query, opening = firstVariable given >>= next ∧
    ∀ (kind : LedgerBook.Request → Prop) (first : Json),
      Confined kind (next first) (Query.Pinned anchor first)

theorem opens_mapQuery (map : Json) (anchor : Anchor) (given : Json) :
    Opens anchor given (mapQuery map anchor given) :=
  ⟨_, rfl, fun _ _ => Confined.of_pure ⟨rfl, rfl⟩⟩

theorem ofSide_pinned {package house : Json} {asks : Bool} {query : ClearingHouseQuery}
    (found : ClearingHouseQuery.ofSide package house asks anchor size = .ok query) :
    Query.Pinned anchor size (.ofClearingHouse query) := by
  unfold ClearingHouseQuery.ofSide at found
  obtain ⟨orderbook, _, found⟩ := bind_eq_ok.mp found
  cases asks with
  | true =>
      obtain ⟨map, _, same⟩ := bind_eq_ok.mp found
      cases same
      exact ⟨rfl, rfl⟩
  | false =>
      obtain ⟨map, _, same⟩ := bind_eq_ok.mp found
      cases same
      exact ⟨rfl, rfl⟩

theorem opens_sideQuery (package house : Json) (anchor : Anchor) (asks : Bool) (given : Json) :
    Opens anchor given (sideQuery package house anchor asks given) := by
  refine ⟨_, rfl, fun kind first => ?_⟩
  exact (Confined.of_lift fun _ found => ofSide_pinned found).bind fun _ pinned =>
    Confined.of_pure pinned

namespace Opens

variable {opening : ReadM Query} (opens : Opens anchor given opening)

include opens

/-- A first query that is made has the page size that is found. -/
theorem exists_of_query {query : Query} (found : (outcome opening client log).1 = .ok query) :
    ∃ number : Int, (outcome (Lookup.pageSize given) client log).1 = .ok number ∧
      query.Pinned anchor (.int number) := by
  obtain ⟨next, rfl, confined⟩ := opens
  rcases outcome_bind_cases (firstVariable given) next client log with
    ⟨failure, _, stops⟩ | ⟨first, later, sized, _, goesOn⟩
  · rw [stops] at found
    cases found
  · obtain ⟨number, isSize, rfl⟩ := exists_of_firstVariable sized
    rw [goesOn] at found
    exact ⟨number, isSize, (confined (fun _ => True) _).gives client later query found⟩

/-- A first query takes at most one look-up. -/
theorem requests (client : Client) (log : Log) :
    ∃ limits, (outcome opening client log).2 = log.requests ++ limits ∧ LimitLookups limits := by
  obtain ⟨next, rfl, confined⟩ := opens
  obtain ⟨limits, asked, isLimit⟩ := requests_firstVariable given client log
  -- What follows the page size is confined to no requests at all.
  have silent (first : Json) : Silent (next first) := by
    intro client log
    obtain ⟨made, asks, none⟩ := (confined (fun _ => False) first).sends client log
    rw [asks, List.eq_nil_iff_forall_not_mem.mpr none, List.append_nil]
  exact ⟨limits, (requests_bind _ silent).trans asked, isLimit⟩

theorem confined (isGiven : given.isNull = false) :
    Confined kind opening (Query.Pinned anchor (.int (firstOf given))) := by
  obtain ⟨next, rfl, confined⟩ := opens
  refine (confined_firstVariable isGiven).bind fun first same => ?_
  rw [← same]
  exact confined kind first

/-- So do the steps of a walk that begins with it: the look-up, if any, and then requests at the
anchor that all have the page size. -/
theorem requests_drain [Orderly opening] (view : Page → Except Failure (List α)) (stream : Json)
    (steps : Nat) (client : Client) (log : Log) :
    ∃ limits paged, (outcome (drain steps (Traversal.new opening view stream)) client log).2 =
        log.requests ++ (limits ++ paged) ∧ LimitLookups limits ∧
      PagesOf client log anchor given paged := by
  cases steps with
  | zero => exact ⟨[], [], (List.append_nil _).symm, .inl rfl, .none⟩
  | succ steps =>
      obtain ⟨limits, asked, isLimit⟩ := opens.requests client log
      rw [outcome_drain_new]
      rcases found : outcome opening client log with ⟨failure | query, requests⟩
      · rw [found] at asked
        refine ⟨limits, [], ?_, isLimit, .none⟩
        rw [List.append_nil]
        exact asked
      · rw [found] at asked
        obtain ⟨number, sized, pinned⟩ := opens.exists_of_query (congrArg Prod.fst found)
        have keeps : KeepsTo anchor (.int number) { Traversal.new opening view stream with
            phase := .reading query.nameJson [] (some ⟨query, 0⟩) } := by
          rintro position ⟨⟩
          exact pinned
        obtain ⟨paged, asks, isOne⟩ :=
          (keeps.drain (closed_pinned anchor _) steps).sends client (ReadM.asked requests)
        refine ⟨limits, paged, asks.trans ?_, isLimit, .sized sized isOne⟩
        rw [← List.append_assoc]
        exact congrArg (· ++ paged) asked

end Opens

theorem confined_announce (anchor : Anchor) (stream : Json) :
    Confined kind (announce (.given anchor) stream) fun strong => strong = anchor := by
  unfold announce
  have required : ∀ strong, (AnchorArgument.given anchor).required = .ok strong →
      strong = anchor :=
    fun strong same => (Except.ok.inj same).symm
  refine (Confined.of_lift required).bind fun strong same => ?_
  exact (Confined.of_emit _).bind fun _ _ => Confined.of_pure same

/-- A walk that is announced with its anchor, and given a page size, keeps to both. -/
theorem confined_announced {opening : Anchor → ReadM Query}
    (opens : Opens anchor given (opening anchor)) (isGiven : given.isNull = false)
    (view : Page → Except Failure (List α)) (stream : Json) :
    Confined kind
      (announce (.given anchor) stream >>= fun strong =>
        pure (Traversal.new (opening strong) view stream))
      (KeepsTo anchor (.int (firstOf given))) := by
  refine (confined_announce anchor stream).bind fun strong same => Confined.of_pure ?_
  subst same
  exact keeps_new (opens.confined isGiven) view stream

end LedgerBook.Book
