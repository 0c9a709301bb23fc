import LedgerBook.Event.Basic
/-!
Events put together by name. A detail under the name of one of an event's parts is that part. Every
part is given at most once, and two names are taken by the type and the message.
-/
namespace LedgerBook.Event

/-- An event that is put together, and the names that are taken. -/
structure Draft where
  event : Event
  taken : List Text

namespace Draft

def start (type message : Text) : Draft :=
  ⟨⟨type, message, .null, .null, .null, .info, []⟩, ["event_type", "message"]⟩

/-- Sets the part of a name, or adds a detail if no part has the name. -/
def set (event : Event) (name : Text) (value : Json) : Event :=
  if name == "client" then { event with client := value }
  else if name == "stream" then { event with stream := value }
  else if name == "count" then { event with count := value }
  else if name == "level" then { event with level := .ofName value.text }
  else { event with details := event.details ++ [(name, .plain value)] }

/-- Gives a part, whose name is taken then. -/
def give (draft : Draft) (name : Text) (value : Json) : Draft :=
  ⟨set draft.event name value, name :: draft.taken⟩

def note (level : Level) (message : Text) : Draft :=
  ((start "message" message).give "client" (.str readerName)).give "level" (.str level.name)

/-- A draft of an event of a reader that counts something. -/
def counting (message : Text) (count : Json) : Draft :=
  let draft := ((start "count" message).give "client" (.str readerName)).give "count" count
  { draft with taken := "n" :: "level" :: draft.taken }

/-- The event with further details, of which none may have a name that is taken. -/
def finish (draft : Draft) (details : Json.Members) : Except Failure Event :=
  if details.any fun detail => draft.taken.contains detail.1 then throw .wrongKind
  else return details.foldl (fun event detail => set event detail.1 detail.2) draft.event

end Draft

end LedgerBook.Event
