import LedgerBook.Proofs.Json.Absence
import LedgerBook.Proofs.Lookup
import LedgerBook.Proofs.Unpaged
/-!
What is reported of incomplete answers. Every reader of an answer requires some fields in a fixed
order and fails with the first hop to one of them that is absent, named from the root of the answer,
however many walks it takes to the fields and wherever each of them begins.
-/
namespace LedgerBook

open ReadM
open Json (Step pathText)

variable {α : Type}

namespace Json

/-- A computation on the data of an answer reports the first absent hop of some paths, and none if
all of them lead somewhere. -/
structure Reports (data : Json) (page : Option Int) (paths : List (List Step))
    (result : Except Failure α) : Prop where
  absent : ∀ {hop}, FirstAbsent data paths hop →
    result = .error (.missingData (pathText "data" hop) page)
  present : (∀ path ∈ paths, Present data path) →
    ∀ path number, result ≠ .error (.missingData path number)

namespace Reports

variable {data : Json} {page : Option Int} {paths : List (List Step)} {result : Except Failure α}

theorem of_unpaged [Unpaged result] : Reports data page [] result where
  absent := by
    intro hop impossible
    cases impossible
  present := fun _ => Unpaged.not_missing

/-- What is required behind a hop is reported as if the walk had begun at the root. -/
theorem require {start path : List Step} {value : Json} {next : Json → Except Failure α}
    (ends : start.foldl follow data = value)
    (reached : ∀ short, short <+: start → short ≠ start → Present data short)
    (follows : ∀ last, (start ++ path).foldl follow data = last → last.isNull = false →
      Reports data page paths (next last)) :
    Reports data page ((start ++ path) :: paths)
      (value.require path (pathText "data" start) page >>= next) := by
  have arrives : Present data (start ++ path) →
      value.require path (pathText "data" start) page >>= next =
          next ((start ++ path).foldl follow data) ∧
        Reports data page paths (next ((start ++ path).foldl follow data)) := by
    intro present
    have found := present_iff.mp present
    have walks : value.require path (pathText "data" start) page =
        .ok ((start ++ path).foldl follow data) := by
      refine require_eq_ok ?_ found
      rw [List.foldl_append, ends]
    exact ⟨by rw [walks]; rfl, follows _ rfl found⟩
  constructor
  · intro hop first
    cases first with
    | ofFirst front absent earlier =>
        rw [require_eq_error_behind ends reached front absent earlier]
        rfl
    | later present first =>
        obtain ⟨goesOn, reports⟩ := arrives present
        rw [goesOn]
        exact reports.absent first
  · intro present
    rw [List.forall_mem_cons] at present
    obtain ⟨goesOn, reports⟩ := arrives present.1
    rw [goesOn]
    exact reports.present present.2

theorem require_data {path : List Step} {next : Json → Except Failure α}
    (follows : ∀ last, path.foldl follow data = last → last.isNull = false →
      Reports data page paths (next last)) :
    Reports data page (path :: paths) (data.require path "data" page >>= next) := by
  have whole : Reports data page (([] ++ path) :: paths)
      (data.require path (pathText "data" []) page >>= next) :=
    require rfl (fun short front different => False.elim (different (List.prefix_nil.mp front)))
      follows
  rwa [pathText_nil] at whole

theorem require_behind {start path : List Step} {value : Json} {next : Json → Except Failure α}
    (ends : start.foldl follow data = value) (found : value.isNull = false)
    (follows : ∀ last, (start ++ path).foldl follow data = last → last.isNull = false →
      Reports data page paths (next last)) :
    Reports data page ((start ++ path) :: paths)
      (value.require path (pathText "data" start) page >>= next) := by
  have present : Present data start := present_iff.mpr (ends ▸ found)
  exact require ends (fun short front _ => present.front front) follows

/-- A computation that reports absent hops fails because of missing data exactly if one of the paths
leads nowhere, and then names the first hop that is absent. -/
theorem names (reports : Reports data page paths result) :
    (∀ path number, result = .error (.missingData path number) ↔
        number = page ∧ ∃ hop, FirstAbsent data paths hop ∧ path = pathText "data" hop) ∧
      ((∃ path number, result = .error (.missingData path number)) ↔
        ∃ path ∈ paths, ¬ Present data path) := by
  have named : ∀ path number, result = .error (.missingData path number) ↔
      number = page ∧ ∃ hop, FirstAbsent data paths hop ∧ path = pathText "data" hop := by
    intro path number
    constructor
    · intro fails
      obtain ⟨hop, first⟩ : ∃ hop, FirstAbsent data paths hop := by
        by_contra none
        rw [exists_firstAbsent_iff] at none
        push Not at none
        exact reports.present none path number fails
      have same := reports.absent first
      rw [fails] at same
      injection same with same
      injection same with samePath samePage
      exact ⟨samePage, hop, first, samePath⟩
    · rintro ⟨rfl, hop, first, rfl⟩
      exact reports.absent first
  refine ⟨named, ?_⟩
  rw [← exists_firstAbsent_iff]
  constructor
  · rintro ⟨path, number, fails⟩
    obtain ⟨-, hop, first, -⟩ := (named path number).mp fails
    exact ⟨hop, first⟩
  · rintro ⟨hop, first⟩
    exact ⟨_, page, (named _ page).mpr ⟨rfl, hop, first, rfl⟩⟩

end Reports

end Json

/-! ## Pages -/

namespace Page

open Json (Reports)

/-- The fields of a page that stands at a path. -/
def connectionFields (path : List Step) : List (List Step) :=
  [path ++ [.member "nodes"], path ++ [.member "pageInfo"],
    path ++ [.member "pageInfo", .member "hasNextPage"]]

/-- The required fields of the answer to a query of a map. -/
def mapFields : List (List Step) :=
  mapPath :: connectionFields mapPath

/-- The required fields of the answer to a query of a clearing house. -/
def clearingHouseFields : List (List Step) :=
  sidePath :: (sidePath ++ [.member "address"]) :: (sidePath ++ [.member "map_dfs"]) ::
    connectionFields (sidePath ++ [.member "map_dfs"])

variable {data : Json} {number : Int}

theorem reports_ofConnection {start : List Step} {connection : Json}
    (ends : start.foldl Json.follow data = connection) (found : connection.isNull = false)
    (mapAddress : Option Text) :
    Reports data (some number) (connectionFields start)
      (ofConnection connection (pathText "data" start) number mapAddress) := by
  have root : pathText "data" start ++ ".pageInfo" =
      pathText "data" (start ++ [.member "pageInfo"]) := by
    rw [Json.pathText_snoc, List.append_assoc]
    rfl
  unfold ofConnection
  refine Reports.require_behind ends found fun nodes _ _ => ?_
  refine Reports.require_behind ends found fun info infoEnds infoFound => ?_
  rw [root, PageInfo.ofJson, bind_assoc]
  have shape : start ++ [Step.member "pageInfo", .member "hasNextPage"] =
      (start ++ [.member "pageInfo"]) ++ [.member "hasNextPage"] := by
    rw [List.append_assoc]
    rfl
  rw [shape]
  exact Reports.require_behind infoEnds infoFound fun _ _ _ => .of_unpaged

theorem reports_ofMapData : Reports data (some number) mapFields (ofMapData data number) :=
  Reports.require_data fun _ ends found => reports_ofConnection ends found none

theorem reports_ofClearingHouseData :
    Reports data (some number) clearingHouseFields (ofClearingHouseData data number) := by
  have root : pathText "data" sidePath ++ ".map_dfs" =
      pathText "data" (sidePath ++ [.member "map_dfs"]) := by
    rw [Json.pathText_snoc, List.append_assoc]
    rfl
  unfold ofClearingHouseData
  refine Reports.require_data fun map ends found => ?_
  refine Reports.require_behind ends found fun address _ _ => ?_
  refine Reports.require_behind ends found fun connection connectionEnds connectionFound => ?_
  rw [root]
  exact reports_ofConnection connectionEnds connectionFound _

end Page

/-! ## Look-ups -/

namespace Lookup

open Json (Reports)

variable {client : Client} {log : Log} {data : Json} {document : Document}
  {arguments : Except Failure Json.Members} {decode : Json → Except Failure α}

/-- Whether the arguments of a look-up are accepted, and the client answers the request with them by
this data, null if there is none, and reports no errors. -/
def Answered (client : Client) (log : Log) (document : Document)
    (arguments : Except Failure Json.Members) (data : Json) : Prop :=
  ∃ given members, arguments = .ok given ∧
    client.answer (log.requests ++ [⟨document, given⟩]) = .ok ⟨members, []⟩ ∧
    data = Json.ofOption Json.obj members

/-- A look-up in its parts: the arguments, the request with them, and what is found in the data of
the answer. -/
def inParts (document : Document) (arguments : Except Failure Json.Members)
    (decode : Json → Except Failure α) : ReadM α := do
  let given ← arguments
  let data ← content document given
  decode data

/-- Where the arguments are accepted, one request is sent, and what is found is found in its
answer. -/
theorem outcome_inParts {given : Json.Members} (accepted : arguments = .ok given) :
    outcome (inParts document arguments decode) client log =
      (client.answer (log.requests ++ [⟨document, given⟩]) >>= fun envelope =>
        envelope.required none >>= decode, log.requests ++ [⟨document, given⟩]) := by
  rw [inParts, accepted, outcome_bind]
  exact outcome_content_bind document given decode

/-- What a look-up gives is what is found in the data of the answer. -/
theorem result_of_answered (required : decode .null = .error (.missingData "data" none))
    (answered : Answered client log document arguments data) :
    (outcome (inParts document arguments decode) client log).1 = decode data := by
  obtain ⟨given, members, accepted, answers, rfl⟩ := answered
  rw [outcome_inParts accepted, answers]
  cases members with
  | none => exact required.symm
  | some members => rfl

/-- A look-up whose answer is read by a computation that reports the first absent hop of some paths
reports it too. -/
theorem reports_of_answered {path : List Step} {others : List (List Step)}
    (reports : ∀ data, Reports data none (path :: others) (decode data))
    (answered : Answered client log document arguments data) :
    Reports data none (path :: others)
      (outcome (inParts document arguments decode) client log).1 := by
  have nothing : Json.FirstAbsent .null (path :: others) [] := by
    refine .ofFirst List.nil_prefix (by decide) ?_
    intro short front different
    exact False.elim (different (List.prefix_nil.mp front))
  rw [result_of_answered ((reports .null).absent nothing) answered]
  exact reports data

/-- The variables of the request for the version of an object. -/
def versionArguments (object : Json) : Except Failure Json.Members := do
  let address ← Address.canonical object
  return [("object", .str address)]

/-- The required fields of the answer that tells a version. -/
def versionFields : List (List Step) :=
  [[.member "object", .member "version"]]

/-- The version that an answer tells of an object. -/
def versionIn (data : Json) : Except Failure Int := do
  let version ← data.require [.member "object", .member "version"]
  version.toInt

theorem currentVersion_eq (object : Json) :
    currentVersion object = inParts .objectVersion (versionArguments object) versionIn := by
  unfold currentVersion inParts versionArguments versionIn
  simp only [liftM_bind, bind_assoc]
  rfl

theorem reports_versionIn (data : Json) : Reports data none versionFields (versionIn data) :=
  Reports.require_data fun _ _ _ => .of_unpaged

/-- The variables of the request for the type of an object. -/
def typeArguments (object : Json) (anchor : AnchorArgument) : Except Failure Json.Members := do
  let address ← Address.canonical object
  let version ← versionOf anchor
  return Json.Members.present [("object", .str address), ("version", version)]

/-- The required fields of the answer that tells a type. -/
def typeFields : List (List Step) :=
  [[.member "object"],
    [.member "object", .member "asMoveObject", .variant MoveValue.objectType, .member "contents",
      .member "type", .member "repr"],
    [.member "object", .member "version"]]

theorem typeOf_argument_eq (object : Json) (anchor : AnchorArgument) :
    typeOf object anchor = inParts .objectType (typeArguments object anchor) typeIn := by
  unfold typeOf inParts typeArguments typeIn
  simp only [liftM_bind, bind_assoc]
  rfl

theorem reports_typeIn (data : Json) : Reports data none typeFields (typeIn data) := by
  have root : (Text.ofString "data.object") = pathText "data" [.member "object"] := by
    rw [Json.pathText_cons, Json.pathText_nil]
    rfl
  unfold typeIn
  refine Reports.require_data fun found ends isThere => ?_
  rw [root]
  refine Reports.require_behind ends isThere fun type _ _ => ?_
  exact Reports.require_behind ends isThere fun version _ _ => .of_unpaged

/-- The variables of the request for the parts of an order book. -/
def partArguments (package clearingHouse : Json) (anchor : AnchorArgument) :
    Except Failure Json.Members := do
  let address ← Address.canonical clearingHouse
  let version ← versionOf anchor
  let orderbook ← FieldName.orderbook package
  let asks ← FieldName.asksMap package
  let bids ← FieldName.bidsMap package
  return Json.Members.present
    [("ch", .str address), ("version", version), ("orderbook", orderbook.toJson),
      ("asks", asks.toJson), ("bids", bids.toJson)]

/-- The required fields of the answer that tells the parts of an order book. -/
def partFields : List (List Step) :=
  let book : List Step :=
    [.member "ch", .member "orderbook", .member "value", .variant MoveValue.objectType]
  [book, book ++ [.member "address"], book ++ sideAddress "asks", book ++ sideAddress "bids"]

/-- The parts that an answer tells of an order book. -/
def partsIn (data : Json) : Except Failure BookParts := do
  let path : List Step :=
    [.member "ch", .member "orderbook", .member "value", .variant MoveValue.objectType]
  let root := Json.pathText "data" path
  let book ← data.require path
  let orderbook ← book.require [.member "address"] root
  let asks ← book.require (sideAddress "asks") root
  let bids ← book.require (sideAddress "bids") root
  return ⟨orderbook.text, asks.text, bids.text⟩

theorem bookParts_eq (package clearingHouse : Json) (anchor : AnchorArgument) :
    bookParts package clearingHouse anchor =
      inParts .orderMaps (partArguments package clearingHouse anchor) partsIn := by
  unfold bookParts inParts partArguments partsIn
  simp only [liftM_bind, bind_assoc]
  rfl

theorem reports_partsIn (data : Json) : Reports data none partFields (partsIn data) := by
  unfold partsIn
  refine Reports.require_data fun book ends found => ?_
  refine Reports.require_behind ends found fun orderbook _ _ => ?_
  refine Reports.require_behind ends found fun asks _ _ => ?_
  exact Reports.require_behind ends found fun bids _ _ => .of_unpaged

end Lookup

/-! ## Every reader -/

/-- What a reader makes of the data of an answer, with the page that it tells and its required fields
in their order. -/
inductive ReadsData (data : Json) :
    {α : Type} → Option Int → List (List Step) → Except Failure α → Prop
  | map (query : MapQuery) (page : Int) :
      ReadsData data (some page) Page.mapFields ((Query.ofMap query).decode data page)
  | clearingHouse (query : ClearingHouseQuery) (page : Int) :
      ReadsData data (some page) Page.clearingHouseFields
        ((Query.ofClearingHouse query).decode data page)
  | version {object : Json} {client : Client} {log : Log} :
      Lookup.Answered client log .objectVersion (Lookup.versionArguments object) data →
        ReadsData data none Lookup.versionFields
          (outcome (Lookup.currentVersion object) client log).1
  | type {object : Json} {anchor : AnchorArgument} {client : Client} {log : Log} :
      Lookup.Answered client log .objectType (Lookup.typeArguments object anchor) data →
        ReadsData data none Lookup.typeFields
          (outcome (Lookup.typeOf object anchor) client log).1
  | parts {package clearingHouse : Json} {anchor : AnchorArgument} {client : Client} {log : Log} :
      Lookup.Answered client log .orderMaps (Lookup.partArguments package clearingHouse anchor)
          data →
        ReadsData data none Lookup.partFields
          (outcome (Lookup.bookParts package clearingHouse anchor) client log).1

theorem ReadsData.reports {data : Json} {page : Option Int} {fields : List (List Step)}
    {result : Except Failure α} (reads : ReadsData data page fields result) :
    Json.Reports data page fields result := by
  cases reads with
  | map query page => exact Page.reports_ofMapData
  | clearingHouse query page => exact Page.reports_ofClearingHouseData
  | version answered =>
      rw [Lookup.currentVersion_eq]
      exact Lookup.reports_of_answered Lookup.reports_versionIn answered
  | type answered =>
      rw [Lookup.typeOf_argument_eq]
      exact Lookup.reports_of_answered Lookup.reports_typeIn answered
  | parts answered =>
      rw [Lookup.bookParts_eq]
      exact Lookup.reports_of_answered Lookup.reports_partsIn answered

/-- Missing data is reported exactly if a required field leads nowhere, and what is named is the
first absent hop. All hops before it are there, and its path is complete from the root of the answer
on, checks of types included. -/
theorem missing_names_first_absent {data : Json} {page : Option Int} {fields : List (List Step)}
    {result : Except Failure α} (reads : ReadsData data page fields result) :
    (∀ path number, result = .error (.missingData path number) ↔
        number = page ∧
          ∃ hop, Json.FirstAbsent data fields hop ∧ path = pathText "data" hop) ∧
      ((∃ path number, result = .error (.missingData path number)) ↔
        ∃ field ∈ fields, ¬ Json.Present data field) :=
  reads.reports.names

/-- An answer to a query of a map whose page does not say whether another one follows. -/
def silentPage : Json :=
  .obj [("map", .obj [("map_dfs", .obj [("nodes", .arr []), ("pageInfo", .obj [])])])]

/-- A client that answers every request with the same data. -/
def answering (members : Json.Members) : Client :=
  ⟨fun _ => .ok ⟨some members, []⟩, .null⟩

/-- An answer that tells of an object without its version. -/
def versionless : Json.Members :=
  [("object", .obj [])]

/-- An answer that tells the type of an object which is a package. -/
def packageObject : Json.Members :=
  [("object", .obj [("version", .int 7),
    ("asMoveObject", .obj [("__typename", .str "MovePackage")])])]

/-- An answer that tells the parts of an order book whose map of asks is no object. -/
def withoutAsks : Json.Members :=
  [("ch", .obj [("orderbook", .obj [("value", .obj [("__typename", .str "MoveObject"),
    ("address", .str "0x7"),
    ("asks", .obj [("value", .obj [("__typename", .str "MoveValue")])])])])])]

theorem missing_names_first_absent_of_pages :
    (Query.ofMap ⟨.str "0x1", .null, .int 50, .null⟩).decode silentPage 3 =
        .error (.missingData "data.map.map_dfs.pageInfo.hasNextPage" (some 3)) ∧
      (outcome (Lookup.currentVersion (.str "0x1")) (answering versionless) Log.empty).1 =
        .error (.missingData "data.object.version" none) ∧
      (outcome (Lookup.typeOf (.str "0x1") .absent) (answering packageObject) Log.empty).1 =
        .error (.missingData "data.object.asMoveObject.as_variant(MoveObject)" none) ∧
      (outcome (Lookup.bookParts (.str "0x1") (.str "0x2") .absent) (answering withoutAsks)
          Log.empty).1 =
        .error (.missingData ("data.ch.orderbook.value.as_variant(MoveObject)" ++
          ".asks.value.as_variant(MoveObject)") none) := by
  refine ⟨?_, ?_, ?_, ?_⟩
  · have pageInfo : Json.Present silentPage (Page.mapPath ++ [.member "pageInfo"]) := by decide
    refine ((missing_names_first_absent (.map _ 3)).1 _ _).mpr
      ⟨rfl, (Page.mapPath ++ [.member "pageInfo"]) ++ [.member "hasNextPage"], ?_, by decide⟩
    refine .later (by decide) (.later (by decide) (.later pageInfo ?_))
    exact .ofFirst List.prefix_rfl (by decide) fun _ => pageInfo.earlier _
  · have answered : Lookup.Answered (answering versionless) Log.empty .objectVersion
        (Lookup.versionArguments (.str "0x1")) (.obj versionless) := ⟨_, some _, rfl, rfl, rfl⟩
    have object : Json.Present (.obj versionless) [.member "object"] := by decide
    refine ((missing_names_first_absent (.version answered)).1 _ _).mpr
      ⟨rfl, [.member "object"] ++ [.member "version"], ?_, by decide⟩
    exact .ofFirst List.prefix_rfl (by decide) fun _ => object.earlier _
  · have answered : Lookup.Answered (answering packageObject) Log.empty .objectType
        (Lookup.typeArguments (.str "0x1") .absent) (.obj packageObject) :=
      ⟨_, some _, rfl, rfl, rfl⟩
    have object : Json.Present (.obj packageObject)
        [.member "object", .member "asMoveObject"] := by decide
    refine ((missing_names_first_absent (.type answered)).1 _ _).mpr
      ⟨rfl, [.member "object", .member "asMoveObject"] ++ [.variant MoveValue.objectType], ?_,
        by decide⟩
    refine .later (by decide) ?_
    exact .ofFirst (by decide) (by decide) fun _ => object.earlier _
  · have answered : Lookup.Answered (answering withoutAsks) Log.empty .orderMaps
        (Lookup.partArguments (.str "0x1") (.str "0x2") .absent) (.obj withoutAsks) :=
      ⟨_, some _, rfl, rfl, rfl⟩
    have asks : Json.Present (.obj withoutAsks) [.member "ch", .member "orderbook",
        .member "value", .variant MoveValue.objectType, .member "asks", .member "value"] := by
      decide
    refine ((missing_names_first_absent (.parts answered)).1 _ _).mpr
      ⟨rfl, [.member "ch", .member "orderbook", .member "value", .variant MoveValue.objectType,
        .member "asks", .member "value"] ++ [.variant MoveValue.objectType], ?_, by decide⟩
    refine .later (by decide) (.later (by decide) ?_)
    exact .ofFirst (by decide) (by decide) fun _ => asks.earlier _

end LedgerBook
