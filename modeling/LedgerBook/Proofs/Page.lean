import LedgerBook.Page
import LedgerBook.Proofs.Json.Path
import Mathlib.Data.List.Forall2
/-!
Pages as the service shows them. A field of a map holds a serialized value or something else; a page
that shows some fields is read as their values, in their order.
-/
namespace LedgerBook

/-- What a field of a map holds: a serialized value, or something else, which is passed over. -/
abbrev Field := Option MoveValue

namespace MoveValue

/-- A type without members, which counts as given, has no text. -/
theorem typeText_eq_error {given : Json} (truthy : (given.member "type").isTruthy = true)
    (notObject : (given.member "type").kind ≠ .obj) :
    typeText given = .error .noMembers := by
  unfold typeText
  simp only [Json.orElse, if_pos truthy]
  cases found : given.member "type" with
  | obj members =>
      rw [found] at notObject
      exact False.elim (notObject rfl)
  | _ => rfl

/-- An object's member is the text of the type, and there is none where no type is given. -/
theorem typeText_eq_ok {given : Json}
    (sound : (given.member "type").isTruthy = true → (given.member "type").kind = .obj) :
    typeText given = .ok ((given.member "type").member "repr") := by
  unfold typeText
  by_cases truthy : (given.member "type").isTruthy = true
  · have isObject := sound truthy
    simp only [Json.orElse, if_pos truthy]
    cases found : given.member "type" with
    | obj members => rfl
    | _ =>
        rw [found] at isObject
        cases isObject
  · simp only [Json.orElse, if_neg truthy]
    cases found : given.member "type" with
    | obj members =>
        cases members with
        | nil => rfl
        | cons first rest =>
            rw [found] at truthy
            exact False.elim (truthy rfl)
    | _ => rfl

end MoveValue

namespace Field

/-- Whether a value shows what a field holds. -/
inductive ShownBy : Field → Json → Prop
  | serialized {value : Json} {type payload : Text} :
      value.member Json.typeMember = .str MoveValue.valueType →
      (value.member "type").member "repr" = .str type →
      value.member "bcs" = .str payload →
      ShownBy (some ⟨type, payload⟩) value
  | other {value : Json} : value.hasType MoveValue.valueType = false → ShownBy none value

/-- The entries of a field: those of a leaf, if it holds one. -/
def entries {α : Type} (value : Bcs.Reader α) : Field → List (Entry α)
  | some node => Leaf.entries value node
  | none => []

theorem ShownBy.ofJson? {field : Field} {value : Json} (shown : field.ShownBy value) :
    MoveValue.ofJson? value = .ok field := by
  cases shown with
  | other otherType =>
      rw [MoveValue.ofJson?]
      simp only [otherType]
      rfl
  | @serialized value type payload typename typeText bcs =>
      have isObject : (value.member "type").kind = .obj := by
        cases found : value.member "type" with
        | obj members => rfl
        | _ =>
            rw [found] at typeText
            cases typeText
      have text : MoveValue.typeText value = .ok (.str type) := by
        rw [MoveValue.typeText_eq_ok fun _ => isObject, typeText]
      rw [MoveValue.ofJson?, if_pos (Json.hasType_iff.mpr typename), text, bcs]
      rfl

end Field

namespace Page

variable {nodes : List Json}

/-- Where the service shows a page, the page has some nodes and tells whether to go on. -/
structure Lists (connection : Json) (nodes : List Json) : Prop where
  nodes : connection.member "nodes" = .arr nodes
  tells : ((connection.member "pageInfo").member "hasNextPage").isNull = false

theorem Lists.isNull_eq_false {connection : Json} (lists : Lists connection nodes) :
    connection.isNull = false := by
  cases connection with
  | null => cases lists.nodes
  | _ => rfl

/-- What a page tells of the next one, where nothing is missing. -/
def shownInfo (given : Json) : PageInfo :=
  ⟨(given.member "hasNextPage").isTruthy,
    if (given.member "endCursor").isNull then none else some (given.member "endCursor").text⟩

/-- Only the nodes of a page decide about reading it, once it tells whether to go on. -/
theorem Lists.ofConnection {connection : Json} (lists : Lists connection nodes) (root : Text)
    (index : Int) (mapAddress : Option Text) :
    Page.ofConnection connection root index mapAddress =
      (nodesOfJson nodes).map fun values =>
        ⟨values, shownInfo (connection.member "pageInfo"), mapAddress⟩ := by
  have promised : (connection.member "pageInfo").isNull = false := by
    cases found : connection.member "pageInfo" with
    | null =>
        have tells := lists.tells
        rw [found] at tells
        cases tells
    | _ => rfl
  have required : connection.require [.member "nodes"] root (some index) = .ok (.arr nodes) :=
    Json.require_member_eq_ok lists.nodes rfl
  have informed : connection.require [.member "pageInfo"] root (some index) =
      .ok (connection.member "pageInfo") :=
    Json.require_member_eq_ok rfl promised
  have hasNext : (connection.member "pageInfo").require [.member "hasNextPage"]
      (root ++ ".pageInfo") (some index) =
        .ok ((connection.member "pageInfo").member "hasNextPage") :=
    Json.require_member_eq_ok rfl lists.tells
  have elements : (Json.arr nodes).elements = .ok nodes := rfl
  have info : PageInfo.ofJson (connection.member "pageInfo") (root ++ ".pageInfo") (some index) =
      .ok (shownInfo (connection.member "pageInfo")) := by
    rw [PageInfo.ofJson, hasNext]
    rfl
  unfold Page.ofConnection
  simp only [required, informed, info, ok_bind, elements]
  cases nodesOfJson nodes <;> rfl

/-- Whether a page, where the service shows it, has the given fields and tells whether and how to go
on. -/
structure Shows (connection : Json) (fields : List Field) (hasNext : Bool) (cursor : Text) :
    Prop where
  nodes : ∃ nodes, connection.member "nodes" = .arr nodes ∧
    List.Forall₂ (fun field node => Field.ShownBy field (node.member "map_df")) fields nodes
  hasNext : (connection.member "pageInfo").member "hasNextPage" = .bool hasNext
  cursor : (connection.member "pageInfo").member "endCursor" = .str cursor

/-- The page that shows some fields. -/
def ofFields (fields : List Field) (hasNext : Bool) (cursor : Text) (mapAddress : Option Text) :
    Page :=
  ⟨fields.filterMap id, ⟨hasNext, some cursor⟩, mapAddress⟩

theorem entries_ofFields {α : Type} (value : Bcs.Reader α) (fields : List Field) (hasNext : Bool)
    (cursor : Text) (mapAddress : Option Text) :
    (ofFields fields hasNext cursor mapAddress).entries value =
      fields.flatMap (Field.entries value) := by
  unfold entries ofFields
  induction fields with
  | nil => rfl
  | cons field rest inductionHypothesis =>
      cases field with
      | none => exact inductionHypothesis
      | some node =>
          rw [List.flatMap_cons, ← inductionHypothesis]
          rfl

theorem nodesOfJson_of_shown {fields : List Field} {nodes : List Json}
    (shown : List.Forall₂ (fun field node => Field.ShownBy field (node.member "map_df"))
      fields nodes) :
    nodesOfJson nodes = .ok (fields.filterMap id) := by
  have each : nodes.mapM (fun field => MoveValue.ofJson? (field.findD [.member "map_df"])) =
      (.ok fields : Except Failure (List Field)) := by
    induction shown with
    | nil => rfl
    | @cons field node fields nodes first _ inductionHypothesis =>
        rw [List.mapM_cons, Json.findD_member, first.ofJson?, inductionHypothesis]
        rfl
  rw [nodesOfJson, each]
  rfl

theorem Shows.exists_lists {connection : Json} {fields : List Field} {hasNext : Bool}
    {cursor : Text} (shows : Shows connection fields hasNext cursor) :
    ∃ nodes, Lists connection nodes ∧ nodesOfJson nodes = .ok (fields.filterMap id) := by
  obtain ⟨nodes, isNodes, shown⟩ := shows.nodes
  refine ⟨nodes, ⟨isNodes, ?_⟩, nodesOfJson_of_shown shown⟩
  rw [shows.hasNext]
  rfl

theorem Shows.isNull_eq_false {connection : Json} {fields : List Field} {hasNext : Bool}
    {cursor : Text} (shows : Shows connection fields hasNext cursor) :
    connection.isNull = false := by
  obtain ⟨_, lists, _⟩ := shows.exists_lists
  exact lists.isNull_eq_false

/-- A page has the address with which it was read. -/
theorem mapAddress_ofConnection {connection : Json} {root : Text} {number : Int}
    {mapAddress : Option Text} {page : Page}
    (reads : ofConnection connection root number mapAddress = .ok page) :
    page.mapAddress = mapAddress := by
  unfold ofConnection at reads
  simp only [bind_eq_ok] at reads
  obtain ⟨nodes, _, given, _, info, _, elements, _, values, _, made⟩ := reads
  cases made
  rfl

theorem mapAddress_ofMapData {data : Json} {number : Int} {page : Page}
    (reads : ofMapData data number = .ok page) : page.mapAddress = none := by
  unfold ofMapData at reads
  obtain ⟨connection, _, readsPage⟩ := bind_eq_ok.mp reads
  exact mapAddress_ofConnection readsPage

theorem mapAddress_ofClearingHouseData {data : Json} {number : Int} {page : Page}
    (reads : ofClearingHouseData data number = .ok page) :
    ∃ map, page.mapAddress = some map := by
  unfold ofClearingHouseData at reads
  simp only [bind_eq_ok] at reads
  obtain ⟨map, _, address, _, connection, _, readsPage⟩ := reads
  exact ⟨address.text, mapAddress_ofConnection readsPage⟩

/-- A page that is shown is read. -/
theorem Shows.ofConnection {connection : Json} {fields : List Field} {hasNext : Bool}
    {cursor : Text} (shows : Shows connection fields hasNext cursor) (root : Text) (page : Int)
    (mapAddress : Option Text) :
    ofConnection connection root page mapAddress =
      .ok (ofFields fields hasNext cursor mapAddress) := by
  obtain ⟨nodes, lists, values⟩ := shows.exists_lists
  have info : shownInfo (connection.member "pageInfo") = ⟨hasNext, some cursor⟩ := by
    rw [shownInfo, shows.hasNext, shows.cursor]
    rfl
  rw [lists.ofConnection, values, info]
  rfl

end Page

end LedgerBook
