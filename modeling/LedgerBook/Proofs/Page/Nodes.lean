import LedgerBook.Proofs.Book.Splitting
/-!
Pages whose nodes may be any values. A node that holds no leaf is passed over, whatever it holds
instead, except for one kind of node, which costs the whole page: a serialized value whose type is
given and is not an object.
-/
namespace LedgerBook

namespace Field

/-- What the value in a field says that the field holds. -/
def ofValue (value : Json) : Field :=
  if value.hasType MoveValue.valueType then
    match (value.member "type").member "repr", value.member "bcs" with
    | .str type, .str payload => some ⟨type, payload⟩
    | _, _ => none
  else none

/-- What a node of a page holds. -/
def ofNode (node : Json) : Field :=
  ofValue (node.member "map_df")

/-- Whether a node holds a serialized value whose type is given and is not an object. -/
structure BrokenType (node : Json) : Prop where
  serialized : (node.member "map_df").hasType MoveValue.valueType = true
  given : ((node.member "map_df").member "type").isTruthy = true
  notObject : ((node.member "map_df").member "type").kind ≠ .obj

/-- Whether a node holds a serialized value that is a well-formed leaf with some entries. -/
structure CarriesLeaf {α : Type} (value : Bcs.Reader α) (node : Json) (found : List (Entry α)) :
    Prop where
  serialized : (node.member "map_df").member Json.typeMember = .str MoveValue.valueType
  leaf : ∃ type payload bytes,
    ((node.member "map_df").member "type").member "repr" = .str type ∧
      (node.member "map_df").member "bcs" = .str payload ∧
      Leaf.isType type = true ∧
      MoveValue.bytes ⟨type, payload⟩ = .ok bytes ∧
      Leaf.runReader (Leaf.read value) bytes = .ok found

/-- What a node contributes to the entries of its page. -/
def contribution {α : Type} (value : Bcs.Reader α) (node : Json) : List (Entry α) :=
  (ofNode node).entries value

variable {α : Type} {value : Bcs.Reader α} {node : Json}

theorem CarriesLeaf.contribution_eq {found : List (Entry α)}
    (carries : CarriesLeaf value node found) : contribution value node = found := by
  obtain ⟨type, payload, bytes, typed, paid, leaf, decoded, reads⟩ := carries.leaf
  have holds : ofNode node = some ⟨type, payload⟩ := by
    simp only [ofNode, ofValue, if_pos (Json.hasType_iff.mpr carries.serialized), typed, paid]
  rw [contribution, holds]
  exact Leaf.entries_of_reads leaf decoded reads

/-- A node with entries is a leaf with these entries. -/
theorem carriesLeaf_of_contribution (nonempty : contribution value node ≠ []) :
    CarriesLeaf value node (contribution value node) := by
  cases holds : ofNode node with
  | none =>
      rw [contribution, holds] at nonempty
      exact False.elim (nonempty rfl)
  | some raw =>
      have same : contribution value node = Leaf.entries value raw := by
        rw [contribution, holds]
        rfl
      rw [same] at nonempty ⊢
      obtain ⟨leaf, bytes, decoded, reads⟩ := (Leaf.entries_eq_iff nonempty).mp rfl
      unfold ofNode ofValue at holds
      split at holds
      next isValue =>
        split at holds
        next type payload typed paid =>
          cases holds
          exact ⟨Json.hasType_iff.mp isValue, type, payload, bytes, typed, paid, leaf, decoded,
            reads⟩
        next => cases holds
      next => cases holds

theorem contribution_eq_nil (absent : ∀ found, ¬ CarriesLeaf value node found) :
    contribution value node = [] := by
  by_contra nonempty
  exact absent _ (carriesLeaf_of_contribution nonempty)

/-! ## Reading a node -/

theorem BrokenType.ofJson? (broken : BrokenType node) :
    MoveValue.ofJson? (node.findD [.member "map_df"]) = .error .noMembers := by
  rw [Json.findD_member, MoveValue.ofJson?, if_pos broken.serialized,
    MoveValue.typeText_eq_error broken.given broken.notObject]
  rfl

theorem ofJson?_of_sound (sound : ¬ BrokenType node) :
    MoveValue.ofJson? (node.findD [.member "map_df"]) = .ok (ofNode node) := by
  rw [Json.findD_member, MoveValue.ofJson?]
  by_cases isValue : (node.member "map_df").hasType MoveValue.valueType = true
  · have typed := MoveValue.typeText_eq_ok fun given => by
      by_contra notObject
      exact sound ⟨isValue, given, notObject⟩
    rw [if_pos isValue, typed, ok_bind, ofNode, ofValue, if_pos isValue]
    cases ((node.member "map_df").member "type").member "repr" with
    | str type => cases (node.member "map_df").member "bcs" <;> rfl
    | _ => rfl
  · rw [if_neg isValue, ofNode, ofValue, if_neg isValue]
    rfl

end Field

namespace Page

variable {α : Type} {nodes : List Json}

/-- The values of a page are those that its nodes hold, unless one of its nodes is broken. -/
theorem nodesOfJson_eq_ok (sound : ∀ node ∈ nodes, ¬ Field.BrokenType node) :
    nodesOfJson nodes = .ok (nodes.filterMap Field.ofNode) := by
  have each : nodes.mapM (fun field => MoveValue.ofJson? (field.findD [.member "map_df"])) =
      (.ok (nodes.map Field.ofNode) : Except Failure (List Field)) := by
    induction nodes with
    | nil => rfl
    | cons node rest inductionHypothesis =>
        rw [List.forall_mem_cons] at sound
        rw [List.mapM_cons, Field.ofJson?_of_sound sound.1, inductionHypothesis sound.2]
        rfl
  rw [nodesOfJson, each, ok_bind, List.filterMap_map]
  rfl

/-- A broken node costs the whole page, wherever it stands. -/
theorem nodesOfJson_eq_error (broken : ∃ node ∈ nodes, Field.BrokenType node) :
    nodesOfJson nodes = .error .noMembers := by
  have stops : nodes.mapM (fun field => MoveValue.ofJson? (field.findD [.member "map_df"])) =
      (.error .noMembers : Except Failure (List Field)) := by
    induction nodes with
    | nil =>
        obtain ⟨node, impossible, _⟩ := broken
        cases impossible
    | cons node rest inductionHypothesis =>
        rw [List.mapM_cons]
        by_cases first : Field.BrokenType node
        · rw [first.ofJson?]
          rfl
        · have later : ∃ node ∈ rest, Field.BrokenType node := by
            obtain ⟨other, member, isBroken⟩ := broken
            rcases List.mem_cons.mp member with rfl | inRest
            · exact False.elim (first isBroken)
            · exact ⟨other, inRest, isBroken⟩
          rw [Field.ofJson?_of_sound first, ok_bind, inductionHypothesis later]
          rfl
  rw [nodesOfJson, stops]
  rfl

theorem entries_filterMap (value : Bcs.Reader α) (info : PageInfo) (mapAddress : Option Text) :
    (Page.mk (nodes.filterMap Field.ofNode) info mapAddress).entries value =
      nodes.flatMap (Field.contribution value) := by
  unfold entries
  induction nodes with
  | nil => rfl
  | cons node rest inductionHypothesis =>
      rw [List.flatMap_cons, ← inductionHypothesis, List.filterMap_cons, Field.contribution]
      cases Field.ofNode node with
      | none => rfl
      | some held => rfl

end Page

namespace Query

open Page (Lists)

/-- Where the answer to a query holds a page: at the map, or at the map of a clearing house's side,
which also has an address. -/
inductive HoldsAt : Query → Json → Json → Prop
  | ofMap (query : MapQuery) (data : Json) :
      HoldsAt (.ofMap query) data (Page.mapPath.foldl Json.follow data)
  | ofClearingHouse (query : ClearingHouseQuery) {data map : Json} :
      Page.sidePath.foldl Json.follow data = map → (map.member "address").isNull = false →
      HoldsAt (.ofClearingHouse query) data (map.member "map_dfs")

variable {α : Type} {query : Query} {data connection : Json} {nodes : List Json}

theorem HoldsAt.decode (holds : HoldsAt query data connection) (lists : Lists connection nodes)
    (index : Int) :
    ∃ info mapAddress, query.decode data index =
      (Page.nodesOfJson nodes).map fun values => ⟨values, info, mapAddress⟩ := by
  cases holds with
  | ofMap query =>
      have found : data.require Page.mapPath "data" (some index) =
          .ok (Page.mapPath.foldl Json.follow data) :=
        Json.require_eq_ok rfl lists.isNull_eq_false
      refine ⟨Page.shownInfo ((Page.mapPath.foldl Json.follow data).member "pageInfo"), none, ?_⟩
      rw [Query.decode, Page.ofMapData, found, ok_bind]
      exact lists.ofConnection _ index none
  | @ofClearingHouse query _ map owner addressed =>
      have isMap : map.isNull = false := by
        cases map with
        | null => cases addressed
        | _ => rfl
      have found : data.require Page.sidePath "data" (some index) = .ok map :=
        Json.require_eq_ok owner isMap
      let root := Json.pathText "data" Page.sidePath
      have address : map.require [.member "address"] root (some index) =
          .ok (map.member "address") :=
        Json.require_member_eq_ok rfl addressed
      have page : map.require [.member "map_dfs"] root (some index) =
          .ok (map.member "map_dfs") :=
        Json.require_member_eq_ok rfl lists.isNull_eq_false
      refine ⟨Page.shownInfo ((map.member "map_dfs").member "pageInfo"),
        some (map.member "address").text, ?_⟩
      rw [Query.decode, Page.ofClearingHouseData]
      simp only [found, ok_bind]
      rw [address, ok_bind, page, ok_bind]
      exact lists.ofConnection (root ++ ".map_dfs") index _

/-- A page without broken nodes is read, with the entries of its nodes. -/
theorem HoldsAt.reads_iff (holds : HoldsAt query data connection) (lists : Lists connection nodes)
    (value : Bcs.Reader α) (index : Int) :
    ((∃ page, query.decode data index = .ok page) ↔ ∀ node ∈ nodes, ¬ Field.BrokenType node) ∧
      ∀ page, query.decode data index = .ok page →
        page.entries value = nodes.flatMap (Field.contribution value) := by
  obtain ⟨info, mapAddress, reads⟩ := holds.decode lists index
  by_cases sound : ∀ node ∈ nodes, ¬ Field.BrokenType node
  · rw [Page.nodesOfJson_eq_ok sound] at reads
    refine ⟨⟨fun _ => sound, fun _ => ⟨_, reads⟩⟩, ?_⟩
    intro page decodes
    cases reads.symm.trans decodes
    exact Page.entries_filterMap value info mapAddress
  · have broken : ∃ node ∈ nodes, Field.BrokenType node := by
      push Not at sound
      exact sound
    rw [Page.nodesOfJson_eq_error broken] at reads
    refine ⟨⟨?_, fun impossible => False.elim (sound impossible)⟩, ?_⟩
    · rintro ⟨page, decodes⟩
      cases reads.symm.trans decodes
    · intro page decodes
      cases reads.symm.trans decodes

/-- A page is read exactly if none of its nodes is broken. Its entries are then those of its nodes,
one node after the other: of a node that carries a well-formed leaf, the entries of that leaf, and
of any other, none. If one node is replaced, the other nodes have the same entries as before. -/
theorem HoldsAt.decode_passes_over (holds : HoldsAt query data connection)
    (lists : Lists connection nodes) (value : Bcs.Reader α) (index : Int) :
    ((∃ page, query.decode data index = .ok page) ↔ ∀ node ∈ nodes, ¬ Field.BrokenType node) ∧
      (∀ page, query.decode data index = .ok page →
        page.entries value = nodes.flatMap (Field.contribution value)) ∧
      (∀ node, (∀ found, Field.CarriesLeaf value node found →
          Field.contribution value node = found) ∧
        ((∀ found, ¬ Field.CarriesLeaf value node found) →
          Field.contribution value node = [])) ∧
      ∀ before node after, nodes = before ++ node :: after →
        ∀ page, query.decode data index = .ok page →
          ∀ replacement changedData changed, ¬ Field.BrokenType replacement →
            HoldsAt query changedData changed →
            Lists changed (before ++ replacement :: after) →
              ∃ front back changedPage,
                page.entries value = front ++ Field.contribution value node ++ back ∧
                  query.decode changedData index = .ok changedPage ∧
                  changedPage.entries value =
                    front ++ Field.contribution value replacement ++ back := by
  have whole := holds.reads_iff lists value index
  refine ⟨whole.1, whole.2, fun node => ⟨?_, Field.contribution_eq_nil⟩, ?_⟩
  · intro found carries
    exact carries.contribution_eq
  · intro before node after split page decodes replacement changedData changed sound held changes
    -- The other nodes are not broken, since the page was read before the replacement.
    have others : ∀ other ∈ before ++ node :: after, ¬ Field.BrokenType other := by
      rw [← split]
      exact whole.1.mp ⟨page, decodes⟩
    have allSound : ∀ other ∈ before ++ replacement :: after, ¬ Field.BrokenType other := by
      intro other member
      rcases List.mem_append.mp member with inFront | inBack
      · exact others other (List.mem_append_left _ inFront)
      rcases List.mem_cons.mp inBack with rfl | inRest
      · exact sound
      · exact others other (List.mem_append_right _ (List.mem_cons_of_mem node inRest))
    have changedWhole := held.reads_iff changes value index
    obtain ⟨changedPage, changedDecodes⟩ := changedWhole.1.mpr allSound
    refine ⟨before.flatMap (Field.contribution value), after.flatMap (Field.contribution value),
      changedPage, ?_, changedDecodes, ?_⟩
    · rw [whole.2 page decodes, split, List.flatMap_append, List.flatMap_cons, List.append_assoc]
    · rw [changedWhole.2 changedPage changedDecodes, List.flatMap_append, List.flatMap_cons,
        List.append_assoc]

/-- A node whose value has a text where the object with the text of its type should be. -/
def brokenNode : Json :=
  .obj [("map_df", .obj
    [("__typename", .str MoveValue.valueType), ("type", .str "oops"), ("bcs", .str "AA==")])]

/-- The nodes of three fields, one of them a leaf, after another node. -/
def threeAfter (node : Json) : List Json :=
  node :: Book.threeFields.map Book.fieldJson

theorem contribution_fieldJson (value : Bcs.Reader α) (field : Field) :
    Field.contribution value (Book.fieldJson field) = field.entries value := by
  cases field with
  | none => rfl
  | some held => rfl

def firstOfFive : MapQuery :=
  ⟨.str "0x5", .null, .int 50, .null⟩

/-- The answer to a query of a map, with a last page of some nodes. -/
def lastPageOf (nodes : List Json) : Json :=
  .obj [("map", .obj [("map_dfs", .obj
    [("nodes", .arr nodes),
      ("pageInfo", .obj [("hasNextPage", .bool false), ("endCursor", .null)])])])]

theorem lists_lastPageOf (nodes : List Json) :
    Lists (Page.mapPath.foldl Json.follow (lastPageOf nodes)) nodes :=
  ⟨rfl, rfl⟩

/-- A node that is null costs the leaf after it nothing; a node with a broken type costs it
everything. -/
theorem decode_passes_over_null_but_not_broken :
    (∃ page, Query.decode (.ofMap firstOfFive) (lastPageOf (threeAfter .null)) 0 = .ok page ∧
        page.entries Order.read = [(7, ⟨1, 30⟩)]) ∧
      ¬ ∃ page,
        Query.decode (.ofMap firstOfFive) (lastPageOf (threeAfter brokenNode)) 0 = .ok page := by
  have passes := (HoldsAt.ofMap firstOfFive _).decode_passes_over
    (lists_lastPageOf (threeAfter .null)) Order.read 0
  have stops := (HoldsAt.ofMap firstOfFive _).decode_passes_over
    (lists_lastPageOf (threeAfter brokenNode)) Order.read 0
  have sound : ∀ node ∈ threeAfter .null, ¬ Field.BrokenType node := by
    simp only [threeAfter, Book.threeFields, List.map_cons, List.map_nil, List.forall_mem_cons]
    refine ⟨?_, ?_, ?_, ?_, List.forall_mem_nil _⟩
    · intro broken
      cases broken.serialized
    · intro broken
      exact broken.notObject rfl
    · intro broken
      cases broken.serialized
    · intro broken
      exact broken.notObject rfl
  have broken : Field.BrokenType brokenNode := ⟨by decide, rfl, by decide⟩
  refine ⟨?_, fun reads => stops.1.mp reads brokenNode List.mem_cons_self broken⟩
  obtain ⟨page, decodes⟩ := passes.1.mpr sound
  have nothing : Field.contribution Order.read .null = [] :=
    (passes.2.2.1 .null).2 fun found carries => by cases carries.serialized
  refine ⟨page, decodes, ?_⟩
  rw [passes.2.1 page decodes, threeAfter, List.flatMap_cons, nothing, List.nil_append,
    List.flatMap_map]
  simp only [contribution_fieldJson]
  exact Book.entries_threeFields

end Query

end LedgerBook
