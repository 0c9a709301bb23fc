import LedgerBook.Json.Reader
import LedgerBook.Json.Text
/-!
Everything that can go wrong in a read, by its cause, and the text of each. The failures of a paged
read carry the number of the page at which they happened, once it is known.
-/
namespace LedgerBook

/-- Why bytes do not match a layout of Binary Canonical Serialization, or a value does not fit into
one. -/
inductive Bcs.Fault
  | endOfInput (wanted : Int) (left : Nat)
  | notBool (byte : Nat)
  | redundantLength
  | hugeLength
  | tooManyItems (length left : Nat)
  | notText
  | trailing (count : Nat)
  | tooWide (value : Int) (bits : Nat)
  | notLength (value : Int)
  deriving DecidableEq, Repr

/-- Why the service gave no usable answer. -/
inductive ClientFault
  | session (name text : Text)
  | htmlPage
  | unreadable (fault : Json.ReadFault)
  | refusedText (status : Int) (body : Text) (fault : Json.ReadFault)
  | refused (status : Int) (payload : Json)
  | envelopeKind (kind : Json.Kind)
  | dataKind (kind : Json.Kind)
  | reported (text : Text)
  deriving Repr

/-- Why the next page cannot be asked for. -/
inductive CursorFault
  | missing
  | repeated
  | reported (text : Text)
  deriving DecidableEq, Repr

/-- A failed read. -/
inductive Failure
  /-- A failure of a read that has no closer cause. -/
  | general (text : Text) (page : Option Int)
  /-- The service gave no usable answer; with the status of the answer if there was one. -/
  | client (fault : ClientFault) (status : Option Int) (page : Option Int)
  /-- The answer reports errors. Its text was written for `shown`, the page known at that time. -/
  | server (errors : List Json) (shown : Option Int) (page : Option Int)
  /-- A required value is absent; the path leads to it. -/
  | missingData (path : Text) (page : Option Int)
  /-- Another page is promised, but its cursor is missing or is the one just followed. -/
  | pagination (fault : CursorFault) (page : Option Int)
  | bcs (fault : Bcs.Fault)
  | address (given : Json)
  | anchorKind (kind : Json.Kind)
  | anchorRange (version : Int)
  | anchorRequired
  | pageSize (given : Json)
  | streamNames
  | alreadyIterated
  /-- A block was ended that had not begun. -/
  | noBlock
  /-- A text or a floating-point number that denotes no number. -/
  | notNumeric
  /-- A value of a kind that the operation does not take. -/
  | wrongKind
  /-- An entry that is no pair of a name and a value. -/
  | notPair
  /-- A member was asked of a value that has none. -/
  | noMembers
  /-- A number beyond the range of the kind it is converted to. -/
  | outOfRange
  /-- A text with a half of a pair of units, which has no UTF-8 form. -/
  | notUtf8
  /-- A text with the character zero where none may stand. -/
  | holdsZero
  /-- A text in which containers stand inside each other too deeply. -/
  | tooDeep
  | base64
  | base64Script
  /-- A failure of the caller's own transport or decoder, passed through as it is. -/
  | foreign (name text : Text)
  deriving Repr

namespace ClientFault

def message : ClientFault → Text
  | session name text => name ++ ": " ++ text
  | htmlPage => "HTML response from GraphQL endpoint (blocked request or wrong URL)"
  | unreadable _ => "Failed to decode JSON:"
  | refusedText status body _ => "HTTP " ++ Text.decimal status ++ ": " ++ Text.excerpt body
  | refused status payload => "HTTP " ++ Text.decimal status ++ ": " ++ Text.excerpt payload.text
  | envelopeKind kind => "Unexpected GraphQL response shape: " ++ kind.name
  | dataKind kind => "Unexpected GraphQL `data` shape: " ++ kind.name
  | reported text => text

end ClientFault

def CursorFault.message : CursorFault → Text
  | missing => "hasNextPage is true but endCursor is missing"
  | repeated =>
    "Pagination is not advancing (endCursor repeated). This would cause an infinite loop."
  | reported text => text

def Bcs.Fault.message : Bcs.Fault → String
  | endOfInput wanted left =>
    "unexpected end of input: wanted " ++ Text.decimal wanted ++ " bytes, " ++ Text.decimal left
      ++ " left"
  | notBool byte => "invalid bool byte " ++ Text.decimal byte
  | redundantLength => "non-canonical uleb128"
  | hugeLength => "uleb128 overflows u32"
  | tooManyItems length left =>
    "vector length " ++ Text.decimal length ++ " exceeds remaining " ++ Text.decimal left
      ++ " bytes"
  | notText => "invalid utf-8 string:"
  | trailing count => Text.decimal count ++ " trailing bytes"
  | tooWide value bits =>
    Text.decimal value ++ " does not fit in u" ++ Text.decimal bits
  | notLength value => Text.decimal value ++ " is not a valid uleb128 length"

namespace Failure

/-- The words that name a page in the middle of a text. -/
def pageWords : Option Int → String
  | some page => " at page " ++ Text.decimal page
  | none => ""

/-- The line for one error of an answer: its message if it has one, else all of it. -/
def errorLine (error : Json) : Text :=
  ((error.member "message").orElse error).text

def message : Failure → Text
  | general text _ => text
  | client fault _ page => "Client error" ++ pageWords page ++ ": " ++ fault.message
  | server errors shown _ =>
    Text.join "\n"
      (("Query execution produced the following errors" ++ pageWords shown ++ ":")
        :: errors.map errorLine)
  | missingData path _ => "Missing data in response: " ++ path
  | pagination fault none => fault.message
  | pagination fault (some page) => fault.message ++ " (page " ++ Text.decimal page ++ ")"
  | bcs fault => fault.message
  | address given => "not a Sui address: " ++ given.quotedText
  | anchorKind kind => "anchor version must be an int, got " ++ kind.name
  | anchorRange version => "anchor version out of range: " ++ Text.decimal version
  | anchorRequired => "pass an explicit Anchor (Anchor.pinned(version) or Anchor.current())"
  | pageSize given => "page_size must be positive, got " ++ given.text
  | streamNames => "names must match the number of streams"
  | alreadyIterated => "CursorTraversal can only be iterated once; start a new traversal instead"
  | noBlock => "no block to end"
  | notNumeric => "not a number"
  | wrongKind => "value of a wrong kind"
  | noMembers => "value without members"
  | outOfRange => "number out of range"
  | notPair => "not a pair of a name and a value"
  | notUtf8 => "text without a UTF-8 form"
  | holdsZero => "text with the character zero"
  | tooDeep => "containers too deep"
  | base64 => "not base64"
  | base64Script => "not base64: characters outside ASCII"
  | foreign _ text => text

/-- The page of a failure, where it is known. -/
def page : Failure → Option Int
  | general _ page => page
  | client _ _ page => page
  | server _ _ page => page
  | missingData _ page => page
  | pagination _ page => page
  | _ => none

/-- Puts a failure of a paged read at a page. The others have no page. -/
def setPage (failure : Failure) (page : Option Int) : Failure :=
  match failure with
  | general text _ => general text page
  | client fault status _ => client fault status page
  | server errors shown _ => server errors shown page
  | missingData path _ => missingData path page
  | pagination fault _ => pagination fault page
  | other => other

/-- Whether the service gave no usable answer. -/
def isClient : Failure → Bool
  | client .. => true
  | _ => false

/-- Whether the cursors are at fault. -/
def isPagination : Failure → Bool
  | pagination .. => true
  | _ => false

/-- Whether a read failed for a reason of its own: its cursors are not such a reason. -/
def isRead : Failure → Bool
  | general .. => true
  | client .. => true
  | server .. => true
  | missingData .. => true
  | _ => false

/-- Puts a failure at a page if it is of the given class and its page is not known yet. -/
def tag (applies : Failure → Bool) (page : Int) (failure : Failure) : Failure :=
  if applies failure && failure.page.isNone then failure.setPage (some page) else failure

end Failure

end LedgerBook
