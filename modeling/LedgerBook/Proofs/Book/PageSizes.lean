import LedgerBook.Proofs.Book.Anchored
/-!
Page sizes are above zero. A page size that is given, or that the client was set up with, is checked
before anything is requested; only the limit that the service names is taken as it is. A book checks
every page size once more, so that no service can make it ask for pages without entries.
-/
namespace LedgerBook.Book

open ReadM Paging Traversal

variable {α : Type} {client : Client} {log : Log} {anchor : Anchor} {given size : Json}
  {number : Int}

/-! ## Finding a page size -/

/-- Whether the service names a limit when it is asked for it after some requests. -/
inductive NamesLimit (client : Client) (requests : List LedgerBook.Request) (limit : Int) : Prop
  | intro {envelope : Envelope} {data : Json} :
      client.answer (requests ++ [limitLookup]) = .ok envelope →
      envelope.required none = .ok data →
      (data.findD [.member "serviceConfig", .member "maxPageSize"]).toInt = .ok limit →
      NamesLimit client requests limit

/-- The page sizes that a read may have: all above zero, and the limit of the service, whatever it
is, where no page size is asked for. -/
inductive MaySize (client : Client) (log : Log) (given : Json) (number : Int) : Prop
  | positive :
      0 < number →
      MaySize client log given number
  | limit :
      sizeAsked client given = .null →
      NamesLimit client log.requests number →
      MaySize client log given number

/-- A page size that passes its check is above zero. A floating-point number passes it before it
loses its fraction. -/
theorem checkedPageSize_pos (whole : size.kind ≠ .float)
    (checked : Lookup.checkedPageSize size = .ok number) : 0 < number := by
  rw [Lookup.checkedPageSize] at checked
  obtain ⟨isAtMostZero, compared, checked⟩ := bind_eq_ok.mp checked
  cases size with
  | float value => exact absurd rfl whole
  | bool value =>
      cases value with
      | false =>
          cases compared
          cases checked
      | true =>
          cases compared
          cases checked
          decide
  | int value =>
      cases compared
      by_cases low : value ≤ 0
      · rw [decide_eq_true low] at checked
        cases checked
      · rw [decide_eq_false low] at checked
        cases checked
        exact Int.not_le.mp low
  | null => cases compared
  | str text => cases compared
  | arr items => cases compared
  | obj members => cases compared

/-- The limit of the service is the one that it names, or the fallback if it names none. -/
theorem limit_of_serviceLimit
    (found : (outcome Lookup.serviceLimit client log).1 = .ok number) :
    number = Lookup.fallbackPageSize ∨ NamesLimit client log.requests number := by
  rw [Lookup.serviceLimit_eq] at found
  rcases outcome_bind_cases (Lookup.content .maxPageSize []) _ client log with
    ⟨failure, _, stops⟩ | ⟨data, later, answers, _, goesOn⟩
  · rw [stops] at found
    cases found
  · rw [goesOn] at found
    rw [Lookup.outcome_content] at answers
    obtain ⟨envelope, answered, required⟩ := bind_eq_ok.mp answers
    cases named : data.findD [.member "serviceConfig", .member "maxPageSize"] with
    | null =>
        rw [named] at found
        cases found
        exact .inl rfl
    | _ =>
        right
        rw [named, Lookup.limitOf, outcome_lift] at found
        · exact .intro answered required (named ▸ found)
        · exact Json.noConfusion

/-- A page size that is asked for is found without a request if it is above zero, and is refused if
it is not. -/
theorem outcome_pageSize_of_int (asks : sizeAsked client given = .int number) :
    outcome (Lookup.pageSize given) client log =
      (if 0 < number then .ok number else .error (.pageSize (.int number)), log.requests) := by
  rw [outcome_pageSize_of_asked asks rfl, Lookup.checkedPageSize, Json.isAtMostZero]
  by_cases positive : 0 < number
  · rw [if_pos positive, decide_eq_false (Int.not_le.mpr positive)]
    rfl
  · rw [if_neg positive, decide_eq_true (Int.not_lt.mp positive)]
    rfl

/-- A page size that is found is one that the read may have. -/
theorem maySize_of_pageSize (whole : (sizeAsked client given).kind ≠ .float)
    (found : (outcome (Lookup.pageSize given) client log).1 = .ok number) :
    MaySize client log given number := by
  cases isSize : (sizeAsked client given).isNull with
  | false =>
      rw [outcome_pageSize_of_asked rfl isSize] at found
      exact .positive (checkedPageSize_pos whole found)
  | true =>
      have null : sizeAsked client given = .null := by
        cases size : sizeAsked client given with
        | null => rfl
        | _ =>
            rw [size] at isSize
            cases isSize
      rw [Lookup.pageSize_eq, outcome_bind] at found
      change (outcome (Lookup.sizeOf (sizeAsked client given)) client (asked log.requests)).1 = _
        at found
      rw [null] at found
      rcases limit_of_serviceLimit found with rfl | names
      · exact .positive (by decide)
      · exact .limit null names

/-! ## Requests for pages -/

/-- Requests that come after those of a log, where the sizes of all pages are of a kind. -/
def PagesSized (log : Log) (fine : Int → Prop) (requests : List LedgerBook.Request) : Prop :=
  ∃ made, requests = log.requests ++ made ∧
    ∀ request ∈ made, request.document.isPaged = true →
      ∃ number, request.first = .int number ∧ fine number

theorem PagesSized.of_silent {fine : Int → Prop} : PagesSized log fine log.requests :=
  ⟨[], (List.append_nil _).symm, List.forall_mem_nil _⟩

theorem LimitLookups.not_isPaged {limits : List LedgerBook.Request}
    (isLimit : LimitLookups limits) : ∀ request ∈ limits, ¬ request.document.isPaged = true := by
  rintro request inside
  rcases isLimit with rfl | rfl
  · cases inside
  · rw [List.mem_singleton.mp inside]
    exact Bool.false_ne_true

theorem PackageLookups.not_isPaged {packages : List LedgerBook.Request}
    (isPackage : PackageLookups anchor packages) :
    ∀ request ∈ packages, ¬ request.document.isPaged = true := by
  rintro request inside
  rcases isPackage with rfl | ⟨lookup, rfl, document, _⟩
  · cases inside
  · rw [List.mem_singleton.mp inside, document]
    exact Bool.false_ne_true

/-- The pages that a read asks for have a size that it may have. -/
theorem PagesOf.sized_maySize {paged : List LedgerBook.Request}
    (pages : PagesOf client (asked log.requests) anchor given paged)
    (whole : (sizeAsked client given).kind ≠ .float) :
    ∀ request ∈ paged, ∃ number, request.first = .int number ∧ MaySize client log given number := by
  intro request inside
  cases pages with
  | none => cases inside
  | sized found pinned =>
      rw [← outcome_asked] at found
      exact ⟨_, (pinned request inside).first, maySize_of_pageSize whole found⟩

theorem PagesSized.of_parts {requests limits paged : List LedgerBook.Request}
    (asks : requests = log.requests ++ (limits ++ paged)) (isLimit : LimitLookups limits)
    (pages : PagesOf client (asked log.requests) anchor given paged)
    (whole : (sizeAsked client given).kind ≠ .float) :
    PagesSized log (MaySize client log given) requests := by
  refine ⟨limits ++ paged, asks, fun request inside isPaged => ?_⟩
  rcases List.mem_append.mp inside with early | late
  · exact absurd isPaged (isLimit.not_isPaged request early)
  · exact pages.sized_maySize whole request late

/-- Without an anchor a walk requests nothing, and with one only pages of a size that it may
have. -/
theorem sized_announced {opening : Anchor → ReadM Query} [∀ strong, Orderly (opening strong)]
    (opens : ∀ strong, Opens strong given (opening strong))
    (whole : (sizeAsked client given).kind ≠ .float) (view : Page → Except Failure (List α))
    (steps : Nat) (anchor : AnchorArgument) (stream : Json) :
    PagesSized log (MaySize client log given)
      (outcome
        (consume steps do
          let strong ← announce anchor stream
          return Traversal.new (opening strong) view stream) client log).2 := by
  cases anchor with
  | given strong =>
      obtain ⟨limits, paged, asks, isLimit, pages⟩ :=
        (opens strong).requests_drain view stream steps client (asked log.requests)
      rw [requests_announced]
      exact .of_parts asks isLimit pages whole
  | absent =>
      rw [outcome_consume]
      exact .of_silent
  | notAnchor =>
      rw [outcome_consume]
      exact .of_silent

theorem sized_readMap (whole : (sizeAsked client given).kind ≠ .float) (limit : Nat) (map : Json)
    (anchor : AnchorArgument) (value : Bcs.Reader α) :
    PagesSized log (MaySize client log given)
      (outcome (readMap limit map anchor value given) client log).2 := by
  cases anchor with
  | given strong =>
      obtain ⟨limits, paged, asks, isLimit, pages⟩ :=
        requests_readMap limit map value given client log
      exact .of_parts asks isLimit pages whole
  | absent => exact .of_silent
  | notAnchor => exact .of_silent

/-! ## The sides of a book -/

/-- A page size that is given is above zero when it is found. -/
theorem confined_firstVariable_pos {kind : LedgerBook.Request → Prop}
    (isGiven : given.isNull = false) (whole : given.kind ≠ .float) :
    ReadM.Confined kind (firstVariable given) fun first =>
      ∃ number : Int, 0 < number ∧ first = .int number where
  sends := (confined_firstVariable isGiven).sends
  gives := by
    intro client log first found
    have own : sizeAsked client given = given := sizeAsked_of_given isGiven
    obtain ⟨number, sized, same⟩ := exists_of_firstVariable found
    cases maySize_of_pageSize (by rw [own]; exact whole) sized with
    | positive positive => exact ⟨number, positive, same⟩
    | limit null =>
        rw [own] at null
        rw [null] at isGiven
        cases isGiven
  settled := (confined_firstVariable isGiven).settled

/-- Whether a request for a page is one at an anchor, of a size above zero. -/
def PositiveRequest (anchor : Anchor) (request : LedgerBook.Request) : Prop :=
  ∃ number : Int, 0 < number ∧ request.Pinned anchor (.int number)

/-- Whether a query is one at an anchor, of a page size above zero. -/
def PositiveQuery (anchor : Anchor) (query : Query) : Prop :=
  ∃ number : Int, 0 < number ∧ query.Pinned anchor (.int number)

theorem closed_positive (anchor : Anchor) :
    Query.Closed (PositiveRequest anchor) (PositiveQuery anchor) where
  requests := by
    rintro query request ⟨number, positive, pinned⟩ made
    exact ⟨number, positive, pinned.asks made⟩
  continues := by
    rintro page query index following ⟨number, positive, pinned⟩ goesOn
    exact ⟨number, positive, pinned.continuation goesOn⟩

theorem Opens.confined_pos {opening : ReadM Query} {kind : LedgerBook.Request → Prop}
    (opens : Opens anchor given opening) (isGiven : given.isNull = false)
    (whole : given.kind ≠ .float) : ReadM.Confined kind opening (PositiveQuery anchor) := by
  obtain ⟨next, rfl, confined⟩ := opens
  refine (confined_firstVariable_pos isGiven whole).bind ?_
  rintro first ⟨number, positive, rfl⟩
  exact (confined kind (.int number)).mono fun query pinned => ⟨number, positive, pinned⟩

namespace Request

variable (request : Request)

/-- Opening a book asks for no pages. -/
theorem sized_opening {fine : Int → Prop} (client : Client) (log : Log) :
    PagesSized log fine (outcome request.merge client log).2 := by
  obtain ⟨packages, limits, asks, isPackage, isLimit, _⟩ := request.sides_spec client log
  rw [requests_merge]
  refine ⟨packages ++ limits, asks, fun request inside isPaged => ?_⟩
  rcases List.mem_append.mp inside with early | late
  · exact absurd isPaged (isPackage.not_isPaged request early)
  · exact absurd isPaged (isLimit.not_isPaged request late)

/-- Whatever page size the look-ups of a book find, its sides check it again. -/
theorem keeps_positive {package : Json} {number : Int} {walk : Traversal (Entry Order)}
    (isOne : walk ∈ request.walks package (.int number)) :
    walk.Keeps (PositiveRequest request.anchor) (PositiveQuery request.anchor) := by
  obtain ⟨asks, rfl⟩ := request.exists_sideWalk_of_mem isOne
  have opens := opens_sideQuery package request.clearingHouse request.anchor asks (.int number)
  exact keeps_new (opens.confined_pos rfl nofun) _ _

theorem sized_book {client : Client} {log later : Log}
    {first state : Merge.State (Traversal (Entry Order)) (Entry Order)}
    {passages : List (Merge.Passage (Entry Order))}
    (opened : request.merge client log = .ok first later)
    (run : Merge.Run (source client) first passages state) :
    PagesSized log (0 < ·) state.log.requests := by
  obtain ⟨walks, gives, fresh⟩ := request.fresh_of_merge opened
  obtain ⟨packages, limits, asked, isPackage, isLimit, launched⟩ := request.sides_spec client log
  rw [gives] at asked launched
  obtain ⟨package, number, rfl⟩ := launched walks rfl
  obtain ⟨_, paged, asks, positive⟩ :=
    run.confined (confined_source (closed_positive request.anchor) client) fun side inside =>
      request.keeps_positive (request.mem_walks_of_fresh fresh inside)
  refine ⟨packages ++ limits ++ paged, ?_, fun sent inside isPaged => ?_⟩
  · rw [asks, ← List.append_assoc]
    exact congrArg (· ++ paged) asked
  · rcases List.mem_append.mp inside with look | page
    · rcases List.mem_append.mp look with early | late
      · exact absurd isPaged (isPackage.not_isPaged sent early)
      · exact absurd isPaged (isLimit.not_isPaged sent late)
    · obtain ⟨size, isPositive, pinned⟩ := positive sent page
      exact ⟨size, pinned.first, isPositive⟩

end Request

/-! ## The result -/

/-- What holds of the page sizes of all reads with a client and a given page size. -/
structure PageSizesHold (client : Client) (given : Json) : Prop where
  asked : ∀ log number, sizeAsked client given = .int number →
    outcome (Lookup.pageSize given) client log =
      (if 0 < number then .ok number else .error (.pageSize (.int number)), log.requests)
  found : ∀ log number, (outcome (Lookup.pageSize given) client log).1 = .ok number →
    MaySize client log given number
  walkedMap : ∀ {α : Type} (log : Log) (steps : Nat) (map : Json) (anchor : AnchorArgument)
    (value : Bcs.Reader α) (stream : Json),
    PagesSized log (MaySize client log given)
      (outcome (consume steps (walkMap map anchor value given stream)) client log).2
  walkedSide : ∀ (log : Log) (steps : Nat) (package house : Json) (anchor : AnchorArgument)
    (asks : Bool),
    PagesSized log (MaySize client log given)
      (outcome (consume steps (walkSide package house anchor asks given)) client log).2
  whole : ∀ {α : Type} (log : Log) (limit : Nat) (map : Json) (anchor : AnchorArgument)
    (value : Bcs.Reader α),
    PagesSized log (MaySize client log given)
      (outcome (readMap limit map anchor value given) client log).2
  opened : ∀ (log : Log) (house package : Json) (anchor : Anchor),
    PagesSized log (0 < ·) (outcome (Request.mk house anchor package given).merge client log).2
  book : ∀ {log later first passages state} {house package : Json} {anchor : Anchor},
    (Request.mk house anchor package given).merge client log = .ok first later →
    Merge.Run (source client) first passages state →
    PagesSized log (0 < ·) state.log.requests

/-- Page sizes are above zero, unless nobody asks for one and the service names another limit. So
are the sizes of all pages that a read asks for, whatever the service answers, and those of a book
without exception. -/
theorem page_sizes_hold (client : Client) (given : Json)
    (whole : (sizeAsked client given).kind ≠ .float) : PageSizesHold client given where
  asked _ _ asks := outcome_pageSize_of_int asks
  found _ _ found := maySize_of_pageSize whole found
  walkedMap _ steps map anchor _ stream :=
    sized_announced (fun strong => opens_mapQuery map strong given) whole _ steps anchor stream
  walkedSide _ steps package house anchor asks :=
    sized_announced (fun strong => opens_sideQuery package house strong asks given) whole _ steps
      anchor (streamName asks)
  whole _ limit map anchor value := sized_readMap whole limit map anchor value
  opened log _ _ _ := Request.sized_opening _ client log
  book := Request.sized_book _

/-- A service whose limit is below zero. -/
def lowLimit : Client where
  answer _ := .ok ⟨some [("serviceConfig", .obj [("maxPageSize", .int (-3))])], []⟩
  pageSize := .null

/-- Where nobody asks for a page size, the first page of a map is asked for with the limit of the
service, be it below zero. -/
theorem page_sizes_hold_of_low_limit :
    (sizeAsked lowLimit .null).kind ≠ .float ∧ PageSizesHold lowLimit .null ∧
      outcome (Lookup.pageSize .null) lowLimit Log.empty = (.ok (-3), [limitLookup]) ∧
      ((outcome (consume 2 (walkMap (.str "0xa5") (.given ⟨some 8⟩) Order.read .null .null))
        lowLimit Log.empty).2.map LedgerBook.Request.first) = [.null, .int (-3)] :=
  ⟨by decide, page_sizes_hold lowLimit .null (by decide), rfl, rfl⟩

end LedgerBook.Book
