import LedgerBook.Proofs.Json.Path
import LedgerBook.Query
import Mathlib.Data.List.Nodup
/-!
What the requests for pages carry: the version of an anchor under the name that the query has for
it, the page size, and the cursor. From one page to the next only the cursor changes, also where a
query of a clearing house is narrowed to its map.
-/
namespace LedgerBook

namespace Json.Members

theorem lookup_eq_none {members : Members} {name : Text}
    (absent : name ∉ members.map Prod.fst) : members.lookup name = none := by
  rw [List.lookup_eq_none_iff]
  intro member inside
  rw [bne_iff_ne]
  rintro rfl
  exact absent (List.mem_map_of_mem inside)

/-- A member keeps its value when those that are null are left out. -/
theorem get_present {members : Members} (distinct : (members.map Prod.fst).Nodup) (name : Text) :
    get (present members) name = get members name := by
  induction members with
  | nil => rfl
  | cons member rest inductionHypothesis =>
      obtain ⟨own, value⟩ := member
      rw [List.map_cons, List.nodup_cons] at distinct
      have others := inductionHypothesis distinct.2
      unfold get present at others ⊢
      by_cases same : name = own
      · subst same
        cases value with
        | null =>
            have left := lookup_eq_none distinct.1
            rw [left] at others
            rw [List.filter_cons_of_neg Bool.false_ne_true, others, List.lookup_cons_self]
            rfl
        | _ => rw [List.filter_cons_of_pos rfl, List.lookup_cons_self, List.lookup_cons_self]
      · have other : (name == own) = false := beq_eq_false_iff_ne.mpr same
        rw [List.filter_cons]
        split <;> simpa only [List.lookup_cons, other] using others

theorem filter_present (members : Members) (chosen : Text × Json → Bool) :
    (present members).filter chosen = present (members.filter chosen) := by
  unfold present
  rw [List.filter_filter, List.filter_filter]
  exact List.filter_congr fun member _ => Bool.and_comm _ _

end Json.Members

/-! ## What a request carries -/

/-- The name under which a query sends the version of its anchor. -/
def Document.versionName : Document → Text
  | .mapOrders => "chVersion"
  | _ => "version"

/-- Whether a query asks for a page. -/
def Document.isPaged : Document → Bool
  | .mapOrders => true
  | .clearingHouseOrders => true
  | _ => false

/-- Whether a variable is a version, under any of its names. -/
def isVersion (member : Text × Json) : Bool :=
  member.1 == "version" || member.1 == "chVersion"

/-- The versions that a request carries, with their names. -/
def Request.versions (request : Request) : Json.Members :=
  request.arguments.filter isVersion

/-- The page size that a request carries, null if none. -/
def Request.first (request : Request) : Json :=
  Json.Members.get request.arguments "first"

/-- The cursor that a request carries, null if none. -/
def Request.after (request : Request) : Json :=
  Json.Members.get request.arguments "after"

/-- The version of an anchor under a name, if the anchor has one. -/
def Anchor.named (anchor : Anchor) (name : Text) : Json.Members :=
  match anchor.version with
  | some version => [(name, .int version.val)]
  | none => []

/-- Where the version of an anchor is the only one among some variables, it is sent or left out. -/
theorem Anchor.versions_present (anchor : Anchor) (name : Text) {members : Json.Members}
    (only : members.filter isVersion = [(name, anchor.versionJson)]) :
    (Json.Members.present members).filter isVersion = anchor.named name := by
  rw [Json.Members.filter_present, only]
  unfold Anchor.versionJson Anchor.named
  cases anchor.version with
  | none => rfl
  | some version => rfl

namespace Query

def version : Query → Json
  | ofMap query => query.version
  | ofClearingHouse query => query.version

def first : Query → Json
  | ofMap query => query.first
  | ofClearingHouse query => query.first

/-- What a request for a page is made of: the variables of its query, of which those that are null
are left out. One of them is the version. -/
theorem request_spec {query : Query} {request : Request} (made : query.request = .ok request) :
    ∃ members : Json.Members, request.arguments = Json.Members.present members ∧
      (members.map Prod.fst).Nodup ∧ request.document = query.document ∧
      members.filter isVersion = [(query.document.versionName, query.version)] ∧
      Json.Members.get members "first" = query.first ∧
      Json.Members.get members "after" = query.after := by
  cases query with
  | ofMap query =>
      obtain ⟨map, _, same⟩ := bind_eq_ok.mp made
      cases same
      have distinct : (["map", "chVersion", "first", "after"] : List Text).Nodup := by decide
      exact ⟨_, rfl, distinct, rfl, rfl, rfl, rfl⟩
  | ofClearingHouse query =>
      obtain ⟨house, _, same⟩ := bind_eq_ok.mp made
      cases same
      have distinct : (["ch", "version", "orderbook", "mapName", "first", "after"] :
          List Text).Nodup := by decide
      exact ⟨_, rfl, distinct, rfl, rfl, rfl, rfl⟩

theorem after_request {query : Query} {request : Request} (made : query.request = .ok request) :
    request.after = query.after := by
  obtain ⟨members, carried, distinct, _, _, _, after⟩ := request_spec made
  rw [Request.after, carried, Json.Members.get_present distinct, after]

/-- Whether a query is one at an anchor, with a page size. -/
structure Pinned (anchor : Anchor) (size : Json) (query : Query) : Prop where
  version : query.version = anchor.versionJson
  first : query.first = size

end Query

/-- Whether a request for a page carries exactly the version of an anchor, or none if the anchor has
none, and a page size. -/
structure Request.Pinned (anchor : Anchor) (size : Json) (request : Request) : Prop where
  isPaged : request.document.isPaged = true
  versions : request.versions = anchor.named request.document.versionName
  first : request.first = size

namespace Query

variable {query following : Query} {request : Request} {anchor : Anchor} {size : Json}

theorem isPaged_document (query : Query) : query.document.isPaged = true := by
  cases query <;> rfl

theorem Pinned.asks (pinned : query.Pinned anchor size) (made : query.request = .ok request) :
    request.Pinned anchor size := by
  obtain ⟨members, carried, distinct, document, only, first, _⟩ := request_spec made
  refine ⟨document ▸ query.isPaged_document, ?_, ?_⟩
  · rw [Request.versions, carried, document]
    exact anchor.versions_present query.document.versionName (pinned.version ▸ only)
  · rw [Request.first, carried, Json.Members.get_present distinct, first, pinned.first]

theorem exists_withAfter {info : PageInfo} (goesOn : next info query = .ok (some following)) :
    ∃ after, following = query.withAfter after := by
  unfold next at goesOn
  split at goesOn
  · split at goesOn
    · cases goesOn
    · split at goesOn
      · cases goesOn
      · cases goesOn
        exact ⟨_, rfl⟩
  · cases goesOn

theorem Pinned.withAfter (pinned : query.Pinned anchor size) (after : Json) :
    (query.withAfter after).Pinned anchor size := by
  cases query <;> exact ⟨pinned.version, pinned.first⟩

theorem Pinned.narrowed (pinned : query.Pinned anchor size) {map : Text}
    (narrows : query.narrowed map = .ok following) : following.Pinned anchor size := by
  cases query with
  | ofMap query => cases narrows
  | ofClearingHouse query =>
      cases narrows
      exact ⟨pinned.version, pinned.first⟩

/-- The query after a page carries the same version and page size as the one before. -/
theorem Pinned.continuation {page : Page} {index : Int} (pinned : query.Pinned anchor size)
    (goesOn : Query.continuation page query index = .ok (some following)) :
    following.Pinned anchor size := by
  unfold Query.continuation at goesOn
  cases told : page.mapAddress with
  | none =>
      rw [told] at goesOn
      obtain ⟨after, rfl⟩ := exists_withAfter (mapError_eq_ok.mp goesOn)
      exact pinned.withAfter after
  | some map =>
      rw [told] at goesOn
      obtain ⟨narrow, narrows, goesOn⟩ := bind_eq_ok.mp (mapError_eq_ok.mp goesOn)
      obtain ⟨after, rfl⟩ := exists_withAfter goesOn
      exact (pinned.narrowed narrows).withAfter after

end Query

end LedgerBook
