import LedgerBook.Json.Basic
import LedgerBook.Number.Shortest
import LedgerBook.Text.Quoted
/-!
The text of a value inside a message. A text stands there as it is; texts inside arrays and objects
are quoted.
-/
namespace LedgerBook.Json

def boolName (value : Bool) : String :=
  if value then "True" else "False"

mutual

def quotedText : Json → String
  | null => "None"
  | bool value => boolName value
  | int value => Text.decimal value
  | float value => value.text
  | str text => Text.quoted text
  | arr items => "[" ++ String.intercalate ", " (itemTexts items) ++ "]"
  | obj members => "\x7b" ++ String.intercalate ", " (memberTexts members) ++ "\x7d"

def itemTexts : List Json → List String
  | [] => []
  | item :: rest => quotedText item :: itemTexts rest

def memberTexts : List (Text × Json) → List String
  | [] => []
  | (name, value) :: rest => (Text.quoted name ++ ": " ++ quotedText value) :: memberTexts rest

end

def text : Json → Text
  | str text => text
  | value => quotedText value

example : quotedText (arr [null, str "a", obj [("k", bool true)]]) =
    "[None, 'a', \x7b'k': True\x7d]" := by
  decide +kernel

end LedgerBook.Json
