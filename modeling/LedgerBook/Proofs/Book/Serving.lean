import LedgerBook.Proofs.Book.Agreement
import LedgerBook.Proofs.Book.Splitting
import LedgerBook.Proofs.Paging.Due
/-!
Complete reads. A service that splits the fields of a map into pages in any way, and leads from each
page to the next by its cursor, is read page by page to the end: the entries are those of the
fields, wherever the read starts and however the pages are cut.
-/
namespace LedgerBook.Book

open ReadM Paging

variable {α : Type} {client : Client} {log : Log}

/-! ## Pages that are served -/

theorem outcome_fetch {query : Query} {request : LedgerBook.Request} {data : Json.Members}
    {page : Page} {index : Nat} (made : query.request = .ok request)
    (answered : client.answer (log.requests ++ [request]) = .ok ⟨some data, []⟩)
    (decoded : query.decode (.obj data) index = .ok page) :
    outcome (fetch query index) client log = (.ok page, log.requests ++ [request]) := by
  have answer : answerTo client (log.requests ++ [request]) query index = .ok page := by
    rw [answerTo, answered]
    exact decoded
  have exchange : Exchanges client query index log.requests (.ok page) _ :=
    ⟨request, made, rfl, answer⟩
  exact (outcome_asked _).trans exchange.outcome_fetch

theorem outcome_visit_of_continuation {position : Position} {page : Page} {next : Option Query}
    {requests : List LedgerBook.Request}
    (fetched : outcome (fetch position.query position.index) client log = (.ok page, requests))
    (continues : Query.continuation page position.query position.index = .ok next) :
    outcome (visit pure position) client log =
      (.ok (page, next.map fun query => ⟨query, position.index + 1⟩), requests) := by
  rw [outcome_visit fetched, continues]
  rfl

section Served

variable {fields : List Field} {splitting : Splitting fields} {address : String} {anchor : Anchor}
  {first : Json}

/-- The query of a page of a map. -/
def pageQuery (splitting : Splitting fields) (map : Json) (anchor : Anchor) (first : Json)
    (index : Nat) : Query :=
  .ofMap ⟨map, anchor.versionJson, first, splitting.after index⟩

/-- What a page leads to: the query after its cursor, which its own query did not follow. -/
theorem next_pageQuery (map : Json) {index : Nat} (within : index < splitting.count) :
    Query.next (splitting.pageAt index none).info (pageQuery splitting map anchor first index) =
      .ok (if index + 1 < splitting.count then
        some (pageQuery splitting map anchor first (index + 1)) else none) := by
  by_cases more : index + 1 < splitting.count
  · have fresh : (pageQuery splitting map anchor first index).follows (splitting.cursor index) =
        false := by
      cases index with
      | zero => rfl
      | succ before =>
          have different := splitting.distinct (Nat.lt_succ_self before) within
          exact beq_eq_false_iff_ne.mpr different
    have info : (splitting.pageAt index none).info = ⟨true, some (splitting.cursor index)⟩ := by
      rw [Splitting.pageAt, Page.ofFields, decide_eq_true more]
    rw [info, if_pos more, Query.next]
    simp only [fresh]
    rfl
  · have info : (splitting.pageAt index none).info = ⟨false, some (splitting.cursor index)⟩ := by
      rw [Splitting.pageAt, Page.ofFields, decide_eq_false more]
    rw [info, if_neg more]
    rfl

/-- A page of a map that is served is visited with one request. -/
theorem outcome_visit_map (log : Log) {map : Json} (valid : Address.canonical map = .ok address)
    (serves : Serves client splitting (mapRequest address anchor first) OwnsMap) {index : Nat}
    (within : index < splitting.count) :
    outcome (visit pure ⟨pageQuery splitting map anchor first index, index⟩) client log =
      (.ok (splitting.pageAt index none,
          if index + 1 < splitting.count then
            some ⟨pageQuery splitting map anchor first (index + 1), index + 1⟩ else none),
        log.requests ++ [mapRequest address anchor first (splitting.after index)]) := by
  obtain ⟨data, held, answered, owns, shows⟩ := serves log.requests index within
  have made : (pageQuery splitting map anchor first index).request =
      .ok (mapRequest address anchor first (splitting.after index)) := by
    rw [pageQuery, Query.request, valid]
    rfl
  have decoded : (pageQuery splitting map anchor first index).decode (.obj data) index =
      .ok (splitting.pageAt index none) := by
    have arrives : Page.mapPath.foldl Json.follow (.obj data) = held.member "map_dfs" := by
      rw [← owns]
      rfl
    have found : (Json.obj data).require Page.mapPath "data" (some (index : Int)) =
        .ok (held.member "map_dfs") :=
      Json.require_eq_ok arrives shows.isNull_eq_false
    change Page.ofMapData (.obj data) index = _
    rw [Page.ofMapData, found]
    exact shows.ofConnection _ _ none
  have continues :
      Query.continuation (splitting.pageAt index none) (pageQuery splitting map anchor first index)
          index =
        .ok (if index + 1 < splitting.count then
          some (pageQuery splitting map anchor first (index + 1)) else none) := by
    change (Query.next (splitting.pageAt index none).info _).mapError _ = _
    rw [next_pageQuery map within]
    rfl
  rw [outcome_visit_of_continuation (outcome_fetch made answered decoded) continues]
  split <;> rfl

/-- From any page on, all pages of a map that is served are fetched. -/
theorem fetches_map {map : Json} (valid : Address.canonical map = .ok address)
    (serves : Serves client splitting (mapRequest address anchor first) OwnsMap) {index : Nat}
    (within : index < splitting.count) (requests : List LedgerBook.Request) :
    Fetches client pure (some ⟨pageQuery splitting map anchor first index, index⟩) requests
      (splitting.pagesFrom index) .complete
      (requests ++ splitting.requestsFrom (mapRequest address anchor first) index) := by
  obtain ⟨remaining, enough⟩ : ∃ remaining, splitting.count = index + remaining + 1 :=
    ⟨splitting.count - index - 1, by omega⟩
  induction remaining generalizing index requests with
  | zero =>
      have visits := outcome_visit_map (asked requests) valid serves within
      rw [if_neg (by omega)] at visits
      rw [splitting.pagesFrom_eq_cons within, splitting.requestsFrom_eq_cons _ within,
        splitting.pagesFrom_eq_nil (by omega), splitting.requestsFrom_eq_nil _ (by omega)]
      exact .page visits .complete
  | succ remaining inductionHypothesis =>
      have more : index + 1 < splitting.count := by omega
      have visits := outcome_visit_map (asked requests) valid serves within
      rw [if_pos more] at visits
      have rest := inductionHypothesis more
        (requests ++ [mapRequest address anchor first (splitting.after index)]) (by omega)
      rw [List.append_assoc] at rest
      rw [splitting.pagesFrom_eq_cons within, splitting.requestsFrom_eq_cons _ within]
      exact .page visits rest

/-- The first query of the map of a side of a clearing house. -/
def firstOfSide (clearingHouse : Json) (packageAddress : String) (asks : Bool) (anchor : Anchor)
    (first : Json) : ClearingHouseQuery :=
  ⟨clearingHouse, keyName packageAddress "Orderbook", keyName packageAddress (sideKey asks),
    anchor.versionJson, first, .null⟩

theorem ofSide_eq_ok {package clearingHouse : Json} {packageAddress : String} (asks : Bool)
    (packageValid : Address.canonical package = .ok packageAddress) :
    ClearingHouseQuery.ofSide package clearingHouse asks anchor first =
      .ok (firstOfSide clearingHouse packageAddress asks anchor first) := by
  have key (struct : Text) :
      FieldName.key package struct = .ok (keyName packageAddress struct) := by
    rw [FieldName.key, packageValid]
    rfl
  cases asks with
  | true =>
      simp only [ClearingHouseQuery.ofSide, FieldName.orderbook, FieldName.asksMap, key]
      rfl
  | false =>
      simp only [ClearingHouseQuery.ofSide, FieldName.orderbook, FieldName.bidsMap, key]
      rfl

/-- The first page from a clearing house, which also shows the address of the map. -/
theorem ofClearingHouseData_eq_ok {data held : Json}
    (owns : OwnsSide address data held)
    (shows : Page.Shows (held.member "map_dfs") (splitting.fieldsAt 0)
      (decide (0 + 1 < splitting.count)) (splitting.cursor 0)) :
    ∃ reported, Address.canonical (.str reported) = .ok address ∧
      Page.ofClearingHouseData data 0 = .ok (splitting.pageAt 0 (some reported)) := by
  obtain ⟨path, reported, showsAddress, valid⟩ := owns
  refine ⟨reported, valid, ?_⟩
  have isMap : held.isNull = false := by
    cases held with
    | null => cases showsAddress
    | _ => rfl
  have found : data.require Page.sidePath "data" (some 0) = .ok held :=
    Json.require_eq_ok path isMap
  have addressed (root : Text) : held.require [.member "address"] root (some 0) =
      .ok (.str reported) :=
    Json.require_member_eq_ok showsAddress rfl
  have connected (root : Text) : held.require [.member "map_dfs"] root (some 0) =
      .ok (held.member "map_dfs") :=
    Json.require_member_eq_ok rfl shows.isNull_eq_false
  unfold Page.ofClearingHouseData
  simp only [found, ok_bind, addressed, connected]
  exact shows.ofConnection _ 0 (some reported)

/-- The first page from a clearing house is visited with one request, and leads on to the map whose
address it shows. -/
theorem outcome_visit_side (log : Log) {clearingHouse : Json} {house packageAddress : String}
    {asks : Bool} (houseValid : Address.canonical clearingHouse = .ok house)
    (servesSide : Serves client splitting (sideRequest house packageAddress asks anchor first)
      (OwnsSide address)) :
    ∃ reported, Address.canonical (.str reported) = .ok address ∧
      outcome
          (visit pure
            ⟨.ofClearingHouse (firstOfSide clearingHouse packageAddress asks anchor first), 0⟩)
          client log =
        (.ok (splitting.pageAt 0 (some reported),
            if 1 < splitting.count then
              some ⟨pageQuery splitting (.str reported) anchor first 1, 1⟩ else none),
          log.requests ++ [sideRequest house packageAddress asks anchor first .null]) := by
  have within := splitting.count_pos
  obtain ⟨data, held, answered, owns, shows⟩ := servesSide log.requests 0 within
  obtain ⟨reported, valid, decoded⟩ := ofClearingHouseData_eq_ok owns shows
  refine ⟨reported, valid, ?_⟩
  have made :
      (Query.ofClearingHouse
          (firstOfSide clearingHouse packageAddress asks anchor first)).request =
        .ok (sideRequest house packageAddress asks anchor first .null) := by
    rw [firstOfSide, Query.request, houseValid]
    rfl
  -- Narrowed to the map, the query goes on as one that began at the map.
  have continues :
      Query.continuation (splitting.pageAt 0 (some reported))
          (.ofClearingHouse (firstOfSide clearingHouse packageAddress asks anchor first)) 0 =
        .ok (if 1 < splitting.count then
          some (pageQuery splitting (.str reported) anchor first 1) else none) := by
    change (Query.next (splitting.pageAt 0 none).info
      (pageQuery splitting (.str reported) anchor first 0)).mapError _ = _
    rw [next_pageQuery (.str reported) within]
    rfl
  have fetched :
      outcome
          (fetch (.ofClearingHouse (firstOfSide clearingHouse packageAddress asks anchor first))
            (0 : Nat))
          client log =
        (.ok (splitting.pageAt 0 (some reported)),
          log.requests ++ [sideRequest house packageAddress asks anchor first .null]) :=
    outcome_fetch made answered decoded
  have visits :
      outcome
          (visit pure
            ⟨.ofClearingHouse (firstOfSide clearingHouse packageAddress asks anchor first), 0⟩)
          client log = _ :=
    outcome_visit_of_continuation fetched continues
  rw [visits]
  split <;> rfl

/-- From a clearing house on, all pages of the map of a side that is served are fetched: the first
with the query of the clearing house, and those that follow with the query of the map whose address
the first one shows. -/
theorem fetches_side {clearingHouse : Json} {house packageAddress : String} {asks : Bool}
    (houseValid : Address.canonical clearingHouse = .ok house)
    (serves : Serves client splitting (mapRequest address anchor first) OwnsMap)
    (servesSide : Serves client splitting (sideRequest house packageAddress asks anchor first)
      (OwnsSide address)) (requests : List LedgerBook.Request) :
    ∃ pages,
      Fetches client pure
          (some ⟨.ofClearingHouse (firstOfSide clearingHouse packageAddress asks anchor first), 0⟩)
          requests pages .complete
          (requests ++ sideRequest house packageAddress asks anchor first .null ::
            splitting.requestsFrom (mapRequest address anchor first) 1) ∧
        ∀ {α : Type} (value : Bcs.Reader α),
          pages.flatMap (Page.entries value) = fields.flatMap (Field.entries value) := by
  obtain ⟨reported, valid, visits⟩ := outcome_visit_side (asked requests) houseValid servesSide
  refine ⟨splitting.pageAt 0 (some reported) :: splitting.pagesFrom 1, ?_, ?_⟩
  · by_cases more : 1 < splitting.count
    · rw [if_pos more] at visits
      have rest := fetches_map valid serves more
        (requests ++ [sideRequest house packageAddress asks anchor first .null])
      rw [List.append_assoc] at rest
      exact .page visits rest
    · rw [if_neg more] at visits
      rw [splitting.pagesFrom_eq_nil (by omega), splitting.requestsFrom_eq_nil _ (by omega)]
      exact .page visits .complete
  · intro α value
    have same : (splitting.pageAt 0 (some reported)).entries value =
        (splitting.pageAt 0 none).entries value := rfl
    rw [List.flatMap_cons, same, ← List.flatMap_cons,
      ← splitting.pagesFrom_eq_cons splitting.count_pos, splitting.entries_pagesFrom]

end Served

/-! ## Reads from the map and from the clearing house -/

/-- A setting in which a map with some fields is read: the service, how it splits the fields, and
what the reader asks for. The first requests are look-ups of the page size, if there are any. -/
structure Setting (fields : List Field) where
  client : Client
  log : Log
  splitting : Splitting fields
  map : Json
  address : String
  package : Json
  packageAddress : String
  clearingHouse : Json
  house : String
  asks : Bool
  anchor : Anchor
  pageSize : Json
  first : Json
  lookups : List LedgerBook.Request

namespace Setting

variable {fields : List Field} (setting : Setting fields)

/-- What is sent for a page of the map. -/
def askMap : Json → LedgerBook.Request :=
  mapRequest setting.address setting.anchor setting.first

/-- What is sent for a page of the map, from the clearing house. -/
def askSide : Json → LedgerBook.Request :=
  sideRequest setting.house setting.packageAddress setting.asks setting.anchor setting.first

/-- The addresses are valid, a page size is found, and the service serves the splitting under both
queries. -/
structure Served : Prop where
  map_valid : Address.canonical setting.map = .ok setting.address
  package_valid : Address.canonical setting.package = .ok setting.packageAddress
  house_valid : Address.canonical setting.clearingHouse = .ok setting.house
  sized : outcome (firstVariable setting.pageSize) setting.client setting.log =
    (.ok setting.first, setting.log.requests ++ setting.lookups)
  serves_map : Serves setting.client setting.splitting setting.askMap OwnsMap
  serves_side : Serves setting.client setting.splitting setting.askSide (OwnsSide setting.address)

/-- All requests of a read of the map: one for each page. -/
def mapRequests : List LedgerBook.Request :=
  setting.log.requests ++ setting.lookups ++
    (List.range setting.splitting.count).map fun index =>
      setting.askMap (setting.splitting.after index)

/-- All requests of a read from the clearing house: one for each page. -/
def sideRequests : List LedgerBook.Request :=
  setting.log.requests ++ setting.lookups ++
    (List.range setting.splitting.count).map fun index =>
      if index = 0 then setting.askSide (setting.splitting.after index)
      else setting.askMap (setting.splitting.after index)

/-- A walk over the entries of the map. -/
def walked (value : Bcs.Reader α) (stream : Json) (steps : Nat) :
    Outcome (List (Entry α) × Progress (Entry α)) :=
  outcome
    (consume steps
      (walkMap setting.map (.given setting.anchor) value setting.pageSize stream))
    setting.client setting.log

/-- A walk over the orders of the map. -/
def walkedOrders (stream : Json) (steps : Nat) :
    Outcome (List (Entry Order) × Progress (Entry Order)) :=
  outcome (consume steps (walkOrders setting.map (.given setting.anchor) setting.pageSize stream))
    setting.client setting.log

/-- The entries of the map, read before any is handed out. -/
def collected (value : Bcs.Reader α) (limit : Nat) : Outcome (Option (List (Entry α))) :=
  outcome (readMap limit setting.map (.given setting.anchor) value setting.pageSize)
    setting.client setting.log

/-- A walk over the orders of the map of a side, from the clearing house. -/
def walkedSide (steps : Nat) : Outcome (List (Entry Order) × Progress (Entry Order)) :=
  outcome
    (consume steps
      (walkSide setting.package setting.clearingHouse (.given setting.anchor) setting.asks
        setting.pageSize))
    setting.client setting.log

variable {setting}

theorem Served.outcome_mapQuery (served : setting.Served) :
    outcome (mapQuery setting.map setting.anchor setting.pageSize) setting.client
        (asked setting.log.requests) =
      (.ok (pageQuery setting.splitting setting.map setting.anchor setting.first 0),
        setting.log.requests ++ setting.lookups) := by
  have sized : outcome (firstVariable setting.pageSize) setting.client
      (asked setting.log.requests) =
        (.ok setting.first, setting.log.requests ++ setting.lookups) := by
    rw [← outcome_asked, served.sized]
  unfold mapQuery
  rw [outcome_bind, sized]
  rfl

theorem Served.outcome_sideQuery (served : setting.Served) :
    outcome
        (sideQuery setting.package setting.clearingHouse setting.anchor setting.asks
          setting.pageSize)
        setting.client (asked setting.log.requests) =
      (.ok (.ofClearingHouse (firstOfSide setting.clearingHouse setting.packageAddress setting.asks
          setting.anchor setting.first)),
        setting.log.requests ++ setting.lookups) := by
  have sized : outcome (firstVariable setting.pageSize) setting.client
      (asked setting.log.requests) =
        (.ok setting.first, setting.log.requests ++ setting.lookups) := by
    rw [← outcome_asked, served.sized]
  unfold sideQuery
  simp only [outcome_bind, sized, follow_ok, outcome_lift, ofSide_eq_ok _ served.package_valid]
  rfl

/-- A walk whose query leads to pages that are all fetched ends with their entries. -/
theorem outcome_consume_of_fetches (stream : Json) {client : Client} {log : Log} {anchor : Anchor}
    (opening : Anchor → ReadM Query) [∀ strong, Orderly (opening strong)] {query : Query}
    {pages : List Page} {between after : List LedgerBook.Request} (value : Bcs.Reader α)
    (found : outcome (opening anchor) client (asked log.requests) = (.ok query, between))
    (fetches : Fetches client pure (some ⟨query, 0⟩) between pages .complete after) :
    ∃ bound, ∀ steps, bound ≤ steps →
      outcome
          (consume steps do
            let strong ← announce (.given anchor) stream
            return Traversal.new (opening strong) (fun page => pure (page.entries value)) stream)
          client log =
        (.ok (pages.flatMap (Page.entries value), .ended), after) := by
  obtain ⟨bound, drains⟩ := (fetches.map (Page.entries value)).outcome_drain_new stream found
  refine ⟨bound, fun steps enough => ?_⟩
  obtain ⟨left, drained⟩ := drains steps enough (Or.inl trivial)
  rw [outcome_consume]
  change follow (outcome _ client (asked log.requests)) _ = _
  rw [drained]
  rfl

theorem Served.walked (served : setting.Served) (value : Bcs.Reader α) (stream : Json) :
    ∃ bound, ∀ steps, bound ≤ steps →
      setting.walked value stream steps =
        (.ok (fields.flatMap (Field.entries value), .ended), setting.mapRequests) := by
  have fetches := fetches_map served.map_valid served.serves_map setting.splitting.count_pos
    (setting.log.requests ++ setting.lookups)
  obtain ⟨bound, walks⟩ := outcome_consume_of_fetches stream
    (fun strong => mapQuery setting.map strong setting.pageSize) value served.outcome_mapQuery
    fetches
  refine ⟨bound, fun steps enough => (walks steps enough).trans ?_⟩
  rw [setting.splitting.entries_pagesFrom, Splitting.requestsFrom, Nat.sub_zero,
    ← List.range_eq_range']
  rfl

theorem Served.collected (served : setting.Served) (value : Bcs.Reader α) {limit : Nat}
    (enough : setting.splitting.count ≤ limit) :
    setting.collected value limit =
      (.ok (some (fields.flatMap (Field.entries value))), setting.mapRequests) := by
  have fetches := fetches_map served.map_valid served.serves_map setting.splitting.count_pos
    (setting.log.requests ++ setting.lookups)
  have within : Ending.complete.Within (setting.splitting.pagesFrom 0).length limit := by
    rw [Splitting.pagesFrom, List.length_map, List.length_range']
    exact enough
  have reads := fetches.outcome_pagesFrom
    (pageQuery setting.splitting setting.map setting.anchor setting.first 0).nameJson within
  have found : outcome (firstQuery setting.map (.given setting.anchor) setting.pageSize)
      setting.client setting.log =
        (.ok (pageQuery setting.splitting setting.map setting.anchor setting.first 0),
          setting.log.requests ++ setting.lookups) := by
    rw [outcome_firstQuery]
    exact served.outcome_mapQuery
  change readOutcome setting.client setting.log setting.map (.given setting.anchor) value
    setting.pageSize limit = _
  rw [readOutcome_eq, found, follow_ok, reads]
  change (Except.ok (some ((setting.splitting.pagesFrom 0).flatMap (Page.entries value))), _) = _
  rw [setting.splitting.entries_pagesFrom, Splitting.requestsFrom, Nat.sub_zero,
    ← List.range_eq_range']
  rfl

theorem sideRequests_eq :
    setting.log.requests ++ setting.lookups ++
        setting.askSide .null :: setting.splitting.requestsFrom setting.askMap 1 =
      setting.sideRequests := by
  have size : setting.splitting.count = setting.splitting.count - 1 + 1 :=
    (Nat.sub_add_cancel setting.splitting.count_pos).symm
  rw [sideRequests, List.range_eq_range', size, List.range'_succ, List.map_cons, if_pos rfl,
    Splitting.requestsFrom]
  have later : (List.range' 1 (setting.splitting.count - 1)).map
        (fun index => if index = 0 then setting.askSide (setting.splitting.after index)
          else setting.askMap (setting.splitting.after index)) =
      (List.range' 1 (setting.splitting.count - 1)).map
        (fun index => setting.askMap (setting.splitting.after index)) := by
    apply List.map_congr_left
    intro index member
    have positive := (List.mem_range'_1.mp member).1
    rw [if_neg (by omega)]
  rw [later]
  rfl

theorem Served.walkedSide (served : setting.Served) :
    ∃ bound, ∀ steps, bound ≤ steps →
      setting.walkedSide steps =
        (.ok (fields.flatMap (Field.entries Order.read), .ended), setting.sideRequests) := by
  obtain ⟨pages, fetches, entries⟩ := fetches_side served.house_valid served.serves_map
    served.serves_side (setting.log.requests ++ setting.lookups)
  obtain ⟨bound, walks⟩ := outcome_consume_of_fetches (streamName setting.asks)
    (fun strong => sideQuery setting.package setting.clearingHouse strong setting.asks
      setting.pageSize) Order.read served.outcome_sideQuery fetches
  refine ⟨bound, fun steps enough => (walks steps enough).trans ?_⟩
  rw [entries, ← sideRequests_eq]
  rfl

/-- A setting with the service of a splitting and a page size. -/
def ofService (splitting : Splitting fields) (size : Int) : Setting fields where
  client := splitting.service "0x1" .null
  log := Log.empty
  splitting
  map := .str "0x1"
  address := (⟨1, by decide⟩ : Address).toText
  package := .str "0x2"
  packageAddress := (⟨2, by decide⟩ : Address).toText
  clearingHouse := .str "0x3"
  house := (⟨3, by decide⟩ : Address).toText
  asks := true
  anchor := ⟨some 7⟩
  pageSize := .int size
  first := .int size
  lookups := []

theorem served_ofService (splitting : Splitting fields) {size : Int} (positive : 0 < size) :
    (ofService splitting size).Served where
  map_valid := rfl
  package_valid := rfl
  house_valid := rfl
  sized := outcome_firstVariable_of_pos positive
  serves_map := splitting.service_serves_map _ _ _ _ _
  serves_side := splitting.service_serves_side _ _ _ _ _ _ _ _ rfl

end Setting

/-- Reads are complete, wherever they start and however the service splits the fields. With enough
steps every read of the map ends normally with the entries of all fields, in their order, having
made one request for each page: the walks from the map and from the clearing house, and the eager
read. Two settings with the same fields give the same entries. -/
theorem reads_complete {fields : List Field} {setting other : Setting fields}
    (served : setting.Served) (otherServed : other.Served) :
    (∀ {α : Type} (value : Bcs.Reader α) (stream : Json), ∃ bound, ∀ steps, bound ≤ steps →
        setting.walked value stream steps =
          (.ok (fields.flatMap (Field.entries value), .ended), setting.mapRequests)) ∧
      (∀ stream : Json, ∃ bound, ∀ steps, bound ≤ steps →
        setting.walkedOrders stream steps =
          (.ok (fields.flatMap (Field.entries Order.read), .ended), setting.mapRequests)) ∧
      (∀ {α : Type} (value : Bcs.Reader α), ∃ bound, ∀ limit, bound ≤ limit →
        setting.collected value limit =
          (.ok (some (fields.flatMap (Field.entries value))), setting.mapRequests)) ∧
      (∃ bound, ∀ steps, bound ≤ steps →
        setting.walkedSide steps =
          (.ok (fields.flatMap (Field.entries Order.read), .ended), setting.sideRequests)) ∧
      ∀ stream otherStream : Json, ∃ bound, ∀ steps, bound ≤ steps →
        (setting.walkedOrders stream steps).1 = (other.walkedOrders otherStream steps).1 ∧
          (setting.walkedOrders stream steps).1 = (other.walkedSide steps).1 ∧
          (setting.walkedSide steps).1 = (other.walkedSide steps).1 := by
  refine ⟨fun value stream => served.walked value stream,
    fun stream => served.walked Order.read stream,
    fun value => ⟨setting.splitting.count, fun limit enough => served.collected value enough⟩,
    served.walkedSide, fun stream otherStream => ?_⟩
  obtain ⟨first, walks⟩ := served.walked Order.read stream
  obtain ⟨second, walksSide⟩ := served.walkedSide
  obtain ⟨third, otherWalks⟩ := otherServed.walked Order.read otherStream
  obtain ⟨fourth, otherWalksSide⟩ := otherServed.walkedSide
  refine ⟨first + second + third + fourth, fun steps enough => ?_⟩
  have here : setting.walkedOrders stream steps = _ := walks steps (by omega)
  have there : other.walkedOrders otherStream steps = _ := otherWalks steps (by omega)
  rw [here, there, walksSide steps (by omega), otherWalksSide steps (by omega)]
  exact ⟨rfl, rfl, rfl⟩

/-- Three fields, from the clearing house on three pages and from the map on one. -/
theorem reads_complete_of_three_fields :
    ∃ bound, ∀ steps, bound ≤ steps →
      (Setting.ofService onThreePages 1).walkedSide steps =
          (.ok ([(7, ⟨1, 30⟩)], .ended), (Setting.ofService onThreePages 1).sideRequests) ∧
        ((Setting.ofService onOnePage 50).walkedOrders .null steps).1 =
          ((Setting.ofService onThreePages 1).walkedSide steps).1 := by
  have many : (Setting.ofService onThreePages 1).Served :=
    Setting.served_ofService onThreePages (by decide)
  have single : (Setting.ofService onOnePage 50).Served :=
    Setting.served_ofService onOnePage (by decide)
  obtain ⟨first, walks⟩ := (reads_complete many single).2.2.2.1
  obtain ⟨second, same⟩ := (reads_complete single many).2.2.2.2 .null .null
  refine ⟨first + second, fun steps enough => ⟨?_, (same steps (by omega)).2.1⟩⟩
  rw [walks steps (by omega), entries_threeFields]

end LedgerBook.Book
