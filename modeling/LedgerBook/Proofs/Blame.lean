import LedgerBook.Proofs.Book.Queries
import LedgerBook.Proofs.Placed
/-!
The page at which a read fails. If the failures of the transport have no page, then what comes of a
request for a page stands at that page, whichever part of the exchange it comes from, and what comes
of a look-up stands at the first page.
-/
namespace LedgerBook

open ReadM Paging

variable {α β : Type} {client : Client}

namespace Client

/-- A client whose transport fails with failures of its own, or because the service gave no usable
answer; these have no page. -/
def Unpaged (client : Client) : Prop :=
  ∀ requests failure, client.answer requests = .error failure → failure.isRead = true →
    failure.isClient = true ∧ failure.page = none

/-- A failure that the transport of a client makes up. -/
def Raises (client : Client) (failure : Failure) : Prop :=
  ∃ requests, client.answer requests = .error failure

end Client

/-! ## Failures of reads -/

namespace ReadM

/-- All failures of a read are of a kind. -/
structure Blames (client : Client) (kind : Failure → Prop) (program : ReadM α) : Prop where
  fails : ∀ {log : Log} {failure : Failure},
    (outcome program client log).1 = .error failure → kind failure

namespace Blames

variable {kind other : Failure → Prop} {program : ReadM α}

theorem of_lift {result : Except Failure α}
    (fails : ∀ failure, result = .error failure → kind failure) :
    Blames client kind (liftM result : ReadM α) where
  fails := by
    intro log failure failed
    rw [outcome_lift] at failed
    exact fails failure failed

theorem of_pure (value : α) : Blames client kind (pure value) where
  fails := by
    intro log failure impossible
    cases impossible

theorem of_emit (event : Event) : Blames client kind (emit event) where
  fails := by
    intro log failure impossible
    cases impossible

theorem of_read : Blames client kind (read : ReadM Client) where
  fails := by
    intro log failure impossible
    cases impossible

theorem bind {next : α → ReadM β} (first : Blames client kind program)
    (following : ∀ value, Blames client kind (next value)) :
    Blames client kind (program >>= next) where
  fails := by
    intro log failure failed
    rcases outcome_bind_cases program next client log with
      ⟨cause, fails, stops⟩ | ⟨value, later, _, _, goesOn⟩
    · rw [stops] at failed
      cases failed
      exact first.fails fails
    · rw [goesOn] at failed
      exact (following value).fails failed

theorem map (blames : Blames client kind program) (change : α → β) :
    Blames client kind (change <$> program) := by
  rw [← bind_pure_comp]
  exact blames.bind fun value => of_pure (change value)

theorem of_mapFailure {change : Failure → Failure} (blames : Blames client kind program)
    (changes : ∀ failure, kind failure → other (change failure)) :
    Blames client other (mapFailure change program) where
  fails := by
    intro log failure failed
    rw [outcome_mapFailure] at failed
    rcases found : (outcome program client log).1 with cause | value
    · rw [found] at failed
      cases failed
      exact changes cause (blames.fails found)
    · rw [found] at failed
      cases failed

end Blames

end ReadM

namespace Failure

/-- A failure that has no page yet if it is about an answer. -/
def Unplaced (client : Client) (failure : Failure) : Prop :=
  (failure.isRead = true → failure.page = none) ∧
    (failure.isPagination = true → client.Raises failure)

/-- A failure that stands at a page if it is about an answer or about cursors. What the transport
itself makes up about cursors is passed through as it is. -/
def StandsAt (client : Client) (page : Int) (failure : Failure) : Prop :=
  (failure.isRead = true → failure.page = some page) ∧
    (failure.isPagination = true → failure.page = some page ∨ client.Raises failure)

theorem OfCursors.standsAt {failure : Failure} {page : Int}
    (ofCursors : failure.OfCursors (some page)) : failure.StandsAt client page :=
  ⟨fun impossible => absurd impossible (by rw [ofCursors.1]; decide),
    fun isPagination => Or.inl (ofCursors.2 isPagination)⟩

/-- A failure that had no page stands at a page once it was put there. -/
theorem Unplaced.tag {failure : Failure} {applies : Failure → Bool} (page : Int)
    (unplaced : failure.Unplaced client)
    (read : ∀ cause : Failure, applies cause = true → cause.isRead = true)
    (covers : failure.isRead = true → applies failure = true) :
    (failure.tag applies page).StandsAt client page := by
  by_cases isOne : applies failure = true
  · have isRead := read failure isOne
    rw [tag_of_applies isOne (unplaced.1 isRead)]
    have paged : ¬ failure.Unpaged := fun unpaged =>
      absurd isRead (by rw [unpaged.1]; decide)
    exact ⟨fun _ => page_setPage paged _, fun _ => Or.inl (page_setPage paged _)⟩
  · rw [tag_of_not_applies (Bool.not_eq_true _ ▸ isOne)]
    exact ⟨fun isRead => absurd (covers isRead) isOne, fun isPagination =>
      Or.inr (unplaced.2 isPagination)⟩

end Failure

/-! ## Look-ups -/

/-- A kind of failures that covers whatever goes wrong before a read has its first query: what comes
of a look-up, put at the first page, and what has no page. -/
structure CoversOpening (client : Client) (kind : Failure → Prop) : Prop where
  answers : ∀ requests failure, client.answer requests = .error failure →
    kind (failure.tag Failure.isRead 0)
  refused : ∀ errors, kind (.server errors none (some 0))
  missing : ∀ path, kind (.missingData path (some 0))
  unpaged : ∀ failure : Failure, failure.Unpaged → kind failure

namespace CoversOpening

variable {kind : Failure → Prop} (covers : CoversOpening client kind)

include covers

theorem tag_unpaged {failure : Failure} (unpaged : failure.Unpaged) :
    kind (failure.tag Failure.isRead 0) := by
  rw [Failure.tag_of_not_applies unpaged.1]
  exact covers.unpaged failure unpaged

theorem tag_ofData {failure : Failure} (ofData : failure.OfData none) :
    kind (failure.tag Failure.isRead 0) := by
  cases ofData with
  | missing path => exact covers.missing path
  | unpaged unpaged => exact covers.tag_unpaged unpaged

theorem tag_of_lift (result : Except Failure α) [Unpaged result] :
    Blames client (fun failure => kind (failure.tag Failure.isRead 0))
      (liftM result : ReadM α) :=
  .of_lift fun _ failed => covers.tag_unpaged (Unpaged.fails failed)

theorem of_lift (result : Except Failure α) [Unpaged result] :
    Blames client kind (liftM result : ReadM α) :=
  .of_lift fun failure failed => covers.unpaged failure (Unpaged.fails failed)

theorem content (document : Document) (arguments : Json.Members) :
    Blames client (fun failure => kind (failure.tag Failure.isRead 0))
      (Lookup.content document arguments) where
  fails := by
    intro log failure failed
    rw [Lookup.outcome_content] at failed
    rcases bind_eq_error.mp failed with answered | ⟨envelope, _, refused⟩
    · exact covers.answers _ _ answered
    · rcases Envelope.required_fails refused with rfl | rfl
      · exact covers.refused envelope.errors
      · exact covers.missing "data"

theorem pageSize (given : Json) :
    Blames client (fun failure => kind (failure.tag Failure.isRead 0)) (Lookup.pageSize given) := by
  rw [Lookup.pageSize_eq]
  refine Blames.of_read.bind fun asked => ?_
  unfold Lookup.sizeOf
  split
  · rw [Lookup.serviceLimit_eq]
    refine (covers.content _ _).bind fun data => ?_
    unfold Lookup.limitOf
    split
    · exact (Blames.of_emit _).bind fun _ => .of_pure _
    · exact covers.tag_of_lift _
  · exact covers.tag_of_lift _

theorem packageOf (object : Json) (anchor : Anchor) :
    Blames client (fun failure => kind (failure.tag Failure.isRead 0))
      (Lookup.packageOf object (.given anchor)) := by
  rw [Lookup.packageOf_eq, Lookup.typeOf_eq]
  refine Blames.bind ?_ fun found => covers.tag_of_lift _
  refine (covers.tag_of_lift _).bind fun address => ?_
  refine (covers.content _ _).bind fun data => ?_
  exact .of_lift fun failure failed => covers.tag_ofData (Decodes.fails failed)

omit covers in
/-- What goes wrong in a look-up that is part of the first page is put there. -/
theorem duringFirstPage {lookup : ReadM α}
    (blames : Blames client (fun failure => kind (failure.tag Failure.isRead 0)) lookup) :
    Blames client kind (Book.duringFirstPage lookup) :=
  blames.of_mapFailure fun _ tagged => tagged

theorem firstVariable (pageSize : Json) : Blames client kind (Book.firstVariable pageSize) :=
  (duringFirstPage (covers.pageSize pageSize)).map _

theorem keyPackage (request : Book.Request) : Blames client kind request.keyPackage := by
  unfold Book.Request.keyPackage
  split
  · exact (duringFirstPage (covers.packageOf _ _)).map _
  · exact .of_pure _

theorem mapQuery (map : Json) (anchor : Anchor) (pageSize : Json) :
    Blames client kind (Book.mapQuery map anchor pageSize) :=
  (covers.firstVariable pageSize).bind fun _ => .of_pure _

theorem sideQuery (package clearingHouse : Json) (anchor : Anchor) (asks : Bool)
    (pageSize : Json) :
    Blames client kind (Book.sideQuery package clearingHouse anchor asks pageSize) := by
  refine (covers.firstVariable pageSize).bind fun first => ?_
  exact (covers.of_lift _).bind fun _ => .of_pure _

end CoversOpening

/-! ## Pages -/

/-- A kind of failures that covers whatever goes wrong with a page: what comes of its request, put
at the page if no usable answer came, what is missing in its data, its cursors, and what has no
page. -/
structure CoversPage (client : Client) (index : Int) (kind : Failure → Prop) : Prop where
  answers : ∀ requests failure, client.answer requests = .error failure →
    kind (failure.tag Failure.isClient index)
  refused : ∀ errors, kind (.server errors (some index) (some index))
  missing : ∀ path, kind (.missingData path (some index))
  cursors : ∀ failure : Failure, failure.OfCursors (some index) → kind failure

namespace CoversPage

variable {kind : Failure → Prop} {index : Int} (covers : CoversPage client index kind)

include covers

theorem unpaged {failure : Failure} (unpaged : failure.Unpaged) : kind failure :=
  covers.cursors failure (unpaged.ofCursors _)

theorem of_lift (result : Except Failure α) [Unpaged result] :
    Blames client kind (liftM result : ReadM α) :=
  .of_lift fun _ failed => covers.unpaged (Unpaged.fails failed)

theorem fetch (query : Query) : Blames client kind (fetch query index) := by
  refine (covers.of_lift _).bind fun request => ?_
  refine Blames.bind ⟨fun {log failure} failed => ?_⟩ fun envelope => ?_
  · rw [outcome_mapFailure, outcome_ask] at failed
    rcases answered : client.answer (log.requests ++ [request]) with cause | envelope
    · rw [answered] at failed
      cases failed
      exact covers.answers _ _ answered
    · rw [answered] at failed
      cases failed
  · refine Blames.bind (.of_lift fun failure failed => ?_) fun data =>
      .of_lift fun failure failed => ?_
    · rcases Envelope.required_fails failed with rfl | rfl
      · exact covers.refused envelope.errors
      · exact covers.missing "data"
    · have ofData : failure.OfData (some index) := Decodes.fails failed
      cases ofData with
      | missing path => exact covers.missing path
      | unpaged unpaged => exact covers.unpaged unpaged

omit covers in
theorem visit {view : Page → Except Failure β} [∀ page, Unpaged (view page)] {position : Position}
    (covers : CoversPage client position.index kind) :
    Blames client kind (visit view position) := by
  refine (covers.fetch position.query).bind fun page => ?_
  refine (covers.of_lift _).bind fun seen => ?_
  refine Blames.bind (.of_lift fun failure failed => ?_) fun next => .of_pure _
  exact covers.cursors failure (Query.continuation_fails failed)

end CoversPage

/-! ## A transport that names no pages -/

theorem standsAt_of_unpaged {result : Except Failure α} [Unpaged result] {failure : Failure}
    {page : Int} (failed : result = .error failure) : failure.StandsAt client page :=
  ((Unpaged.fails failed).ofCursors _).standsAt

section Reads

variable (unpaged : client.Unpaged)

include unpaged

theorem Client.Unpaged.unplaced {requests : List Request} {failure : Failure}
    (failed : client.answer requests = .error failure) : failure.Unplaced client :=
  ⟨fun isRead => (unpaged requests failure failed isRead).2, fun _ => ⟨requests, failed⟩⟩

/-- Whatever goes wrong before there is a query stands at the first page. -/
theorem Client.Unpaged.coversOpening : CoversOpening client (Failure.StandsAt client 0) where
  answers _ _ failed := (unpaged.unplaced failed).tag 0 (fun _ isRead => isRead) id
  refused _ := ⟨fun _ => rfl, nofun⟩
  missing _ := ⟨fun _ => rfl, nofun⟩
  unpaged _ unpaged := (unpaged.ofCursors (some 0)).standsAt

/-- Whatever goes wrong with a page stands at this page. -/
theorem Client.Unpaged.coversPage (index : Int) :
    CoversPage client index (Failure.StandsAt client index) where
  answers requests failure failed :=
    (unpaged.unplaced failed).tag index (fun _ => Failure.isRead_of_isClient)
      fun isRead => (unpaged requests failure failed isRead).1
  refused _ := ⟨fun _ => rfl, nofun⟩
  missing _ := ⟨fun _ => rfl, nofun⟩
  cursors _ ofCursors := ofCursors.standsAt

theorem blames_firstVariable (pageSize : Json) :
    Blames client (Failure.StandsAt client 0) (Book.firstVariable pageSize) :=
  unpaged.coversOpening.firstVariable pageSize

theorem blames_keyPackage (request : Book.Request) :
    Blames client (Failure.StandsAt client 0) request.keyPackage :=
  unpaged.coversOpening.keyPackage request

theorem blames_sideQuery (package clearingHouse : Json) (anchor : Anchor) (asks : Bool)
    (pageSize : Json) :
    Blames client (Failure.StandsAt client 0)
      (Book.sideQuery package clearingHouse anchor asks pageSize) :=
  unpaged.coversOpening.sideQuery package clearingHouse anchor asks pageSize

end Reads

end LedgerBook
