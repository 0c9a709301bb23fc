import LedgerBook.Lookup
import LedgerBook.Proofs.Json.Path
import LedgerBook.Proofs.Reading
/-!
Look-ups are orderly reads, each of one request and of what becomes of its answer.
-/
namespace LedgerBook.Lookup

open ReadM

instance (document : Document) (arguments : Json.Members) :
    Orderly (content document arguments) := by
  unfold content
  infer_instance

/-- A look-up of some content makes one request and gives the data of the answer. -/
theorem outcome_content (document : Document) (arguments : Json.Members) {client : Client}
    {log : Log} :
    outcome (content document arguments) client log =
      (client.answer (log.requests ++ [⟨document, arguments⟩]) >>= fun envelope =>
        envelope.required none, log.requests ++ [⟨document, arguments⟩]) := by
  unfold content
  rw [outcome_bind, outcome_ask]
  cases client.answer (log.requests ++ [⟨document, arguments⟩]) with
  | error failure => rfl
  | ok envelope =>
      rw [follow_ok, outcome_lift]
      rfl

/-- What is found in the data of an answer is found after the request. -/
theorem outcome_content_bind {α : Type} (document : Document) (arguments : Json.Members)
    (decode : Json → Except Failure α) {client : Client} {log : Log} :
    outcome (content document arguments >>= fun data => (liftM (decode data) : ReadM α)) client
        log =
      (client.answer (log.requests ++ [⟨document, arguments⟩]) >>= fun envelope =>
        envelope.required none >>= decode, log.requests ++ [⟨document, arguments⟩]) := by
  rw [outcome_bind, outcome_content]
  cases client.answer (log.requests ++ [⟨document, arguments⟩]) with
  | error failure => rfl
  | ok envelope =>
      simp only [ok_bind, outcome_lift]
      cases envelope.required none <;> rfl

/-- What becomes of the limit that the service names, if it names one. -/
def limitOf : Json → ReadM Int
  | .null => do
    emit (.note .debug "page_size.fallback" .null [("page_size", .plain (.int fallbackPageSize))])
    return fallbackPageSize
  | limit => limit.toInt

theorem serviceLimit_eq :
    serviceLimit = content .maxPageSize [] >>= fun data =>
      limitOf (data.findD [.member "serviceConfig", .member "maxPageSize"]) :=
  rfl

instance (limit : Json) : Orderly (limitOf limit) := by
  unfold limitOf
  split <;> infer_instance

instance : Orderly serviceLimit := by
  rw [serviceLimit_eq]
  infer_instance

/-- The page size that is asked for, or else the service's. -/
def sizeOf : Json → ReadM Int
  | .null => serviceLimit
  | size => checkedPageSize size

theorem pageSize_eq (given : Json) :
    pageSize given = (read : ReadM Client) >>= fun client =>
      sizeOf (if given.isNull then client.pageSize else given) :=
  rfl

instance (size : Json) : Orderly (sizeOf size) := by
  unfold sizeOf
  split <;> infer_instance

instance (given : Json) : Orderly (pageSize given) := by
  rw [pageSize_eq]
  infer_instance

/-- The type and the version that an answer tells of an object. -/
def typeIn (data : Json) : Except Failure (Text × Int) := do
  let found ← data.require [.member "object"]
  let type ← found.require
    [.member "asMoveObject", .variant MoveValue.objectType, .member "contents", .member "type",
      .member "repr"] "data.object"
  let version ← found.require [.member "version"] "data.object"
  return (type.text, ← version.toInt)

/-- The request for the type of an object at an anchor. -/
def typeLookup (address : String) (anchor : Anchor) : Request :=
  ⟨.objectType, Json.Members.present
    [("object", .str address), ("version", anchor.versionJson)]⟩

theorem typeOf_eq (object : Json) (anchor : Anchor) :
    typeOf object (.given anchor) =
      (liftM (Address.canonical object) : ReadM String) >>= fun address =>
        content .objectType (typeLookup address anchor).arguments >>= fun data =>
          (liftM (typeIn data) : ReadM (Text × Int)) := by
  unfold typeOf typeIn
  simp only [liftM_bind]
  rfl

/-- The package that defines a type. -/
def packageIn (type : Text) : Except Failure Text := do
  let package ← Address.canonical (.str (beforeSeparator type))
  return package

theorem packageOf_eq (object : Json) (anchor : AnchorArgument) :
    packageOf object anchor = typeOf object anchor >>= fun found =>
      (liftM (packageIn found.1) : ReadM Text) := by
  unfold packageOf packageIn
  simp only [liftM_bind]
  rfl

end LedgerBook.Lookup
