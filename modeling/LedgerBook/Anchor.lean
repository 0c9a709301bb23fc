import LedgerBook.Event.Basic
/-!
Anchors: the version of the ledger to which a read is pinned. With a version every page shows one
state of the ledger; without one each page shows the state at the time of its answer.
-/
namespace LedgerBook

/-- A version of the ledger, a number of 53 bits. -/
abbrev Version := Fin 0x20000000000000

/-- What a read is pinned to, if to anything. -/
structure Anchor where
  version : Option Version
  deriving DecidableEq, Repr

namespace Anchor

/-- Whether all pages show one state. -/
def isStrong (anchor : Anchor) : Bool :=
  anchor.version.isSome

/-- The version as a value, null if there is none. -/
def versionJson (anchor : Anchor) : Json :=
  Json.ofOption (fun version : Version => .int version.val) anchor.version

/-- The anchor at a version that a value gives. Only whole numbers of the range of versions will do;
null gives the anchor without a version. -/
def ofJson : Json → Except Failure Anchor
  | .null => return ⟨none⟩
  | .int value =>
    if inRange : 0 ≤ value ∧ value.toNat < 0x20000000000000 then
      return ⟨some ⟨value.toNat, inRange.2⟩⟩
    else throw (.anchorRange value)
  | other => throw (.anchorKind other.kind)

def event (anchor : Anchor) (stream : Json) : Event :=
  if anchor.isStrong then
    Event.note .debug "anchor.pinned" stream [("version", .plain anchor.versionJson)]
  else
    Event.note .warn "anchor.weak" stream
      [("reason", .plain (.str "no version supplied; pages may reflect different states"))]

end Anchor

/-- What a caller passes where an anchor is expected. -/
inductive AnchorArgument
  | absent
  | given (anchor : Anchor)
  | notAnchor
  deriving DecidableEq, Repr

/-- The anchor of an argument, where one is required. -/
def AnchorArgument.required : AnchorArgument → Except Failure Anchor
  | given anchor => return anchor
  | _ => throw .anchorRequired

end LedgerBook
