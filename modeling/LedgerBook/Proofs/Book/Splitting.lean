import LedgerBook.Book
import LedgerBook.Proofs.Leaf
import LedgerBook.Proofs.Page
/-!
Services that split the fields of a map into pages. Each page is asked for after the cursor of the
page before it, under the query of the map or under that of its clearing house.
-/
namespace LedgerBook.Book

variable {α : Type}

/-! ## Services -/

/-- The fields of a map split into one or more pages, and the cursors after these. -/
structure Splitting (fields : List Field) where
  pages : List (List Field)
  cursor : Nat → Text
  whole : pages.flatten = fields
  nonempty : pages ≠ []
  distinct : ∀ {index other : Nat},
    index < other → other < pages.length → cursor index ≠ cursor other

namespace Splitting

variable {fields : List Field} (splitting : Splitting fields)

/-- How many pages there are. -/
abbrev count : Nat :=
  splitting.pages.length

/-- The fields of the page at an index. -/
def fieldsAt (index : Nat) : List Field :=
  splitting.pages.getD index []

/-- The cursor after which the page at an index is asked for. -/
def after : Nat → Json
  | 0 => .null
  | index + 1 => .str (splitting.cursor index)

/-- The page at an index, as it is read. -/
def pageAt (index : Nat) (mapAddress : Option Text) : Page :=
  Page.ofFields (splitting.fieldsAt index) (decide (index + 1 < splitting.count))
    (splitting.cursor index) mapAddress

theorem count_pos : 0 < splitting.count :=
  List.length_pos_iff.mpr splitting.nonempty

/-- The pages from an index on, as they are read from the map. -/
def pagesFrom (index : Nat) : List Page :=
  (List.range' index (splitting.count - index)).map fun index => splitting.pageAt index none

/-- The requests for the pages from an index on. -/
def requestsFrom (ask : Json → LedgerBook.Request) (index : Nat) : List LedgerBook.Request :=
  (List.range' index (splitting.count - index)).map fun index => ask (splitting.after index)

theorem pagesFrom_eq_cons {index : Nat} (within : index < splitting.count) :
    splitting.pagesFrom index = splitting.pageAt index none :: splitting.pagesFrom (index + 1) := by
  have remaining : splitting.count - index = splitting.count - (index + 1) + 1 := by
    omega
  rw [pagesFrom, remaining, List.range'_succ, List.map_cons]
  rfl

theorem requestsFrom_eq_cons (ask : Json → LedgerBook.Request) {index : Nat}
    (within : index < splitting.count) :
    splitting.requestsFrom ask index =
      ask (splitting.after index) :: splitting.requestsFrom ask (index + 1) := by
  have remaining : splitting.count - index = splitting.count - (index + 1) + 1 := by
    omega
  rw [requestsFrom, remaining, List.range'_succ, List.map_cons]
  rfl

theorem pagesFrom_eq_nil {index : Nat} (beyond : splitting.count ≤ index) :
    splitting.pagesFrom index = [] := by
  rw [pagesFrom, Nat.sub_eq_zero_of_le beyond]
  rfl

theorem requestsFrom_eq_nil (ask : Json → LedgerBook.Request) {index : Nat}
    (beyond : splitting.count ≤ index) : splitting.requestsFrom ask index = [] := by
  rw [requestsFrom, Nat.sub_eq_zero_of_le beyond]
  rfl

/-- The entries of the pages are those of the fields, in their order. -/
theorem entries_pagesFrom (value : Bcs.Reader α) :
    (splitting.pagesFrom 0).flatMap (Page.entries value) =
      fields.flatMap (Field.entries value) := by
  have cut : (List.range splitting.count).map splitting.fieldsAt = splitting.pages := by
    apply List.ext_getElem
    · simp
    · intro index _ within
      simp [fieldsAt, List.getElem?_eq_getElem within]
  calc
    (splitting.pagesFrom 0).flatMap (Page.entries value) =
        (List.range splitting.count).flatMap fun index =>
          (splitting.fieldsAt index).flatMap (Field.entries value) := by
      rw [pagesFrom, Nat.sub_zero, ← List.range_eq_range', List.flatMap_map]
      simp only [pageAt, Page.entries_ofFields]
    _ = ((List.range splitting.count).map splitting.fieldsAt).flatMap fun page =>
          page.flatMap (Field.entries value) := by
      rw [List.flatMap_map]
    _ = splitting.pages.flatten.flatMap (Field.entries value) := by
      rw [cut, ← List.flatMap_id, List.flatMap_assoc]
      rfl
    _ = fields.flatMap (Field.entries value) := by
      rw [splitting.whole]

end Splitting

/-- A service serves a splitting: it answers the request for each page, whatever was asked before,
with the page at the place where the query looks for it. -/
def Serves {fields : List Field} (client : Client) (splitting : Splitting fields)
    (ask : Json → LedgerBook.Request) (owner : Json → Json → Prop) : Prop :=
  ∀ (earlier : List LedgerBook.Request) (index : Nat), index < splitting.count →
    ∃ data map,
      client.answer (earlier ++ [ask (splitting.after index)]) = .ok ⟨some data, []⟩ ∧
        owner (.obj data) map ∧
        Page.Shows (map.member "map_dfs") (splitting.fieldsAt index)
          (decide (index + 1 < splitting.count)) (splitting.cursor index)

/-- The request for a page of a map. -/
def mapRequest (address : String) (anchor : Anchor) (first after : Json) : LedgerBook.Request :=
  ⟨.mapOrders, Json.Members.present
    [("map", .str address), ("chVersion", anchor.versionJson), ("first", first),
      ("after", after)]⟩

/-- Where the answer to a query of a map holds the map. -/
def OwnsMap (data map : Json) : Prop :=
  data.member "map" = map

/-- The name of a key type of a package. -/
def keyName (package : String) (struct : Text) : FieldName :=
  ⟨package ++ "::keys::" ++ struct, FieldName.emptyKey⟩

/-- The key type of the map of a side. -/
def sideKey (asks : Bool) : Text :=
  if asks then "AsksMap" else "BidsMap"

/-- The request for a page of the map of a side of a clearing house. -/
def sideRequest (house package : String) (asks : Bool) (anchor : Anchor) (first after : Json) :
    LedgerBook.Request :=
  ⟨.clearingHouseOrders, Json.Members.present
    [("ch", .str house), ("version", anchor.versionJson),
      ("orderbook", (keyName package "Orderbook").toJson),
      ("mapName", (keyName package (sideKey asks)).toJson), ("first", first), ("after", after)]⟩

/-- Where the answer to a query of a clearing house holds the map of the side, which also shows the
map's address. -/
def OwnsSide (address : String) (data map : Json) : Prop :=
  Page.sidePath.foldl Json.follow data = map ∧
    ∃ reported, map.member "address" = .str reported ∧
      Address.canonical (.str reported) = .ok address

/-! ## A service for every splitting -/

/-- A field as a service shows it. -/
def fieldJson : Field → Json
  | some value =>
    .obj [("map_df", .obj
      [("__typename", .str MoveValue.valueType), ("type", .obj [("repr", .str value.type)]),
        ("bcs", .str value.payload)])]
  | none => .obj [("map_df", .obj [("__typename", .str MoveValue.objectType)])]

theorem shownBy_fieldJson (field : Field) :
    field.ShownBy ((fieldJson field).member "map_df") := by
  cases field with
  | some value => exact .serialized rfl rfl rfl
  | none => exact .other rfl

namespace Splitting

variable {fields : List Field} (splitting : Splitting fields)

/-- The index of the page that is asked for after a cursor. -/
def indexOf : Json → Nat
  | .str cursor =>
    match (List.range splitting.count).find? fun index => splitting.cursor index == cursor with
    | some index => index + 1
    | none => 0
  | _ => 0

theorem indexOf_after {index : Nat} (within : index < splitting.count) :
    splitting.indexOf (splitting.after index) = index := by
  cases index with
  | zero => rfl
  | succ index =>
      have found : (List.range splitting.count).find?
          (fun other => splitting.cursor other == splitting.cursor index) = some index := by
        rw [List.find?_range_eq_some]
        refine ⟨beq_self_eq_true _, List.mem_range.mpr (by omega), ?_⟩
        intro other earlier
        have different := splitting.distinct earlier (Nat.lt_of_succ_lt within)
        rw [beq_eq_false_iff_ne.mpr different]
        rfl
      rw [after, indexOf, found]

/-- The page at an index as a service shows it. -/
def connection (index : Nat) : Json :=
  .obj
    [("nodes", .arr ((splitting.fieldsAt index).map fieldJson)),
      ("pageInfo", .obj
        [("hasNextPage", .bool (decide (index + 1 < splitting.count))),
          ("endCursor", .str (splitting.cursor index))])]

theorem shows_connection (index : Nat) :
    Page.Shows (splitting.connection index) (splitting.fieldsAt index)
      (decide (index + 1 < splitting.count)) (splitting.cursor index) where
  nodes := by
    refine ⟨_, rfl, ?_⟩
    induction splitting.fieldsAt index with
    | nil => exact .nil
    | cons field rest inductionHypothesis =>
        exact .cons (shownBy_fieldJson field) inductionHypothesis
  hasNext := rfl
  cursor := rfl

/-- The data of an answer: the page at an index, where a query looks for it. -/
def data (address : Text) (index : Nat) : Document → Json.Members
  | .mapOrders => [("map", .obj [("map_dfs", splitting.connection index)])]
  | _ =>
    [("clearing_house", .obj [("orderbook_dof", .obj [("orderbook", .obj
      [("__typename", .str MoveValue.objectType), ("map_dof", .obj [("map", .obj
        [("__typename", .str MoveValue.objectType), ("address", .str address),
          ("map_dfs", splitting.connection index)])])])])])]

/-- The service that serves a splitting under both queries. -/
def service (address : Text) (pageSize : Json) : Client where
  answer requests :=
    match requests.getLast? with
    | some request =>
      .ok ⟨some (splitting.data address
        (splitting.indexOf (Json.Members.get request.arguments "after")) request.document), []⟩
    | none => .error .wrongKind
  pageSize

variable (address : String) (reported : Text) (anchor : Anchor) (first : Int) (pageSize : Json)

theorem service_serves_map :
    Serves (splitting.service reported pageSize) splitting
      (mapRequest address anchor (.int first)) OwnsMap := by
  intro earlier index within
  have argument : Json.Members.get
      (mapRequest address anchor (.int first) (splitting.after index)).arguments "after" =
        splitting.after index := by
    cases version : anchor.version <;> cases index <;>
      simp only [mapRequest, Anchor.versionJson, version, after] <;> rfl
  refine ⟨splitting.data reported index .mapOrders, .obj [("map_dfs", splitting.connection index)],
    ?_, rfl, splitting.shows_connection index⟩
  simp only [service, List.getLast?_append, List.getLast?_singleton, Option.some_or, argument,
    splitting.indexOf_after within]
  rfl

theorem service_serves_side (house package : String) (asks : Bool)
    (valid : Address.canonical (.str reported) = .ok address) :
    Serves (splitting.service reported pageSize) splitting
      (sideRequest house package asks anchor (.int first)) (OwnsSide address) := by
  intro earlier index within
  have argument : Json.Members.get
      (sideRequest house package asks anchor (.int first) (splitting.after index)).arguments
        "after" = splitting.after index := by
    cases version : anchor.version <;> cases index <;>
      simp only [sideRequest, Anchor.versionJson, version, after] <;> rfl
  refine ⟨splitting.data reported index .clearingHouseOrders,
    .obj [("__typename", .str MoveValue.objectType), ("address", .str reported),
      ("map_dfs", splitting.connection index)],
    ?_, ⟨rfl, reported, rfl, valid⟩, splitting.shows_connection index⟩
  simp only [service, List.getLast?_append, List.getLast?_singleton, Option.some_or, argument,
    splitting.indexOf_after within]
  rfl

end Splitting

/-- The bytes of a leaf with one order. -/
def leafBytes : Bytes :=
  [1] ++ Bcs.Writer.littleEndian 16 7 ++ Bcs.Writer.littleEndian 8 1 ++
    Bcs.Writer.littleEndian 8 30 ++ Bcs.Writer.littleEndian 8 0

theorem encode_leafBytes :
    Leaf.encode Order.write (Leaf.offered [(7, ⟨1, 30⟩)]) (0 : Nat) = .ok leafBytes := by
  have one : Bcs.Writer.length 1 = Bcs.Writer.bytes [1] := by
    rw [Bcs.Writer.length, if_neg (by decide)]
    exact congrArg Bcs.Writer.bytes (Bcs.Writer.groups_of_lt (by decide))
  unfold Leaf.encode
  simp only [Leaf.write_eq, Bcs.Writer.vector, Leaf.offered, List.length_map,
    List.length_singleton, Nat.cast_one, one]
  rfl

/-- Three fields: a leaf with one order, an object, and a value of another type. -/
def threeFields : List Field :=
  [some ⟨"0x2::ordered_map::Leaf<Order>", Base64.encode leafBytes⟩, none,
    some ⟨"0x2::ordered_map::Branch", "AAA="⟩]

theorem entries_threeFields :
    threeFields.flatMap (Field.entries Order.read) = [(7, ⟨1, 30⟩)] := by
  have leaf : Leaf.entries Order.read
      ⟨"0x2::ordered_map::Leaf<Order>", Base64.encode leafBytes⟩ = [(7, ⟨1, 30⟩)] :=
    Leaf.entries_of_encode Order.undoes_read (by decide) encode_leafBytes (by cbv)
  have branch : Leaf.isType "0x2::ordered_map::Branch" = false := by
    cbv
  have other : Leaf.entries Order.read ⟨"0x2::ordered_map::Branch", "AAA="⟩ = [] := by
    rw [Leaf.entries, branch]
    rfl
  simp only [threeFields, List.flatMap_cons, List.flatMap_nil, Field.entries, leaf, other,
    List.append_nil]

/-- The three fields on one page. -/
def onOnePage : Splitting threeFields where
  pages := [threeFields]
  cursor _ := "only"
  whole := rfl
  nonempty := by decide
  distinct := by
    intro index other earlier within
    simp only [List.length_singleton] at within
    omega

/-- The three fields on three pages, the second of which has none of them. -/
def onThreePages : Splitting threeFields where
  pages := [threeFields.take 1, [], threeFields.drop 1]
  cursor index := List.replicate index (.char 'c')
  whole := rfl
  nonempty := by decide
  distinct := by
    intro index other earlier _ same
    have lengths := congrArg List.length same
    simp only [List.length_replicate] at lengths
    omega

end LedgerBook.Book
