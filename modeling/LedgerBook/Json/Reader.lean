import LedgerBook.Json.Word
/-!
Reading JSON, one character at a time: characters form tokens, and each token moves the reader from
one place in a value to the next. What is wrong first in the text is what is told. A repeated name
keeps the place of the first and the value of the last.
-/
namespace LedgerBook.Json

/-- The units a JSON text is made of. -/
inductive Token
  | openArray | closeArray | openObject | closeObject | comma | colon
  | text (value : Text)
  | word (read : List Char)

/-! ## Characters to tokens -/

/-- What the characters read so far may become. They are kept last first. Inside a text `high` is
the escaped unit just read, if the other half of its pair may follow. -/
inductive Lexeme
  | between
  | word (read : List Char)
  | text (read : Text) (high : Option Nat)
  | escape (read : Text) (high : Option Nat)
  | unit (read : Text) (high : Option Nat) (value count : Nat)

/-- The token of a character that stands for itself. -/
def punctuation? : Char → Option Token
  | '[' => some .openArray
  | ']' => some .closeArray
  | '\x7b' => some .openObject
  | '\x7d' => some .closeObject
  | ',' => some .comma
  | ':' => some .colon
  | _ => none

def isSeparator (c : Char) : Bool :=
  c == ' ' || c == '\n' || c == '\r' || c == '\t'

/-- The character that a letter after a backslash stands for. -/
def escaped? : Char → Option Char
  | '"' => some '"'
  | '\\' => some '\\'
  | '/' => some '/'
  | 'b' => some '\x08'
  | 'f' => some '\x0c'
  | 'n' => some '\n'
  | 'r' => some '\r'
  | 't' => some '\t'
  | _ => none

/-- The code points read so far, after half of a pair that found no other half. -/
def flush (read : Text) : Option Nat → Text
  | some first => .ofUnit first :: read
  | none => read

/-- The character that two halves of a pair make. -/
def joined (first second : Nat) : CodePoint :=
  .char (Char.ofNat (0x10000 + (first - 0xD800) * 0x400 + (second - 0xDC00)))

/-- Adds an escaped unit that completes no pair. It may be the first half of one. -/
def addSingle (read : Text) (value : Nat) : Lexeme :=
  if 0xD800 ≤ value && value < 0xDC00 then .text read (some value)
  else .text (.ofUnit value :: read) none

/-- Adds an escaped unit: two halves of a pair make one character, and a half on its own stays. -/
def addUnit (read : Text) (high : Option Nat) (value : Nat) : Lexeme :=
  match high with
  | some first =>
    if 0xDC00 ≤ value && value < 0xE000 then .text (joined first value :: read) none
    else addSingle (.ofUnit first :: read) value
  | none => addSingle read value

/-- Starts the next lexeme with a character, after the given tokens. -/
def startLexeme (before : List Token) (c : Char) : Lexeme × List Token :=
  if isSeparator c then (.between, before)
  else if c == '"' then (.text [] none, before)
  else match punctuation? c with
    | some token => (.between, before ++ [token])
    | none => (.word [c], before)

/-- Reads one character: the lexeme it leaves and the tokens it completes. -/
def scan (lexeme : Lexeme) (c : Char) : Except ReadFault (Lexeme × List Token) :=
  match lexeme with
  | .between => return startLexeme [] c
  | .word read =>
    if isSeparator c || c == '"' || (punctuation? c).isSome then
      return startLexeme [.word read.reverse] c
    else return (.word (c :: read), [])
  | .text read high =>
    if c == '"' then return (.between, [.text (flush read high).reverse])
    else if c == '\\' then return (.escape read high, [])
    else if c.toNat < 0x20 then throw .malformed
    else return (.text (.char c :: flush read high) none, [])
  | .escape read high =>
    if c == 'u' then return (.unit read high 0 0, [])
    else match escaped? c with
      | some value => return (.text (.char value :: flush read high) none, [])
      | none => throw .malformed
  | .unit read high value count =>
    match Text.hexDigit? c with
    | none => throw .malformed
    | some digit =>
      let value := 16 * value + digit
      if count == 3 then return (addUnit read high value, [])
      else return (.unit read high value (count + 1), [])

/-! ## Tokens to a value -/

/-- A container that waits for a value inside it. -/
inductive Frame
  | items (done : List Json)
  | member (done : Members) (name : Text)

/-- Where the reader stands. Items are kept last first. -/
inductive Place
  | value
  | openArray
  | afterItem (done : List Json)
  | openObject
  | nextName (done : Members)
  | afterName (done : Members) (name : Text)
  | afterMember (done : Members)
  | finished (value : Json)

/-- The place after a complete value. -/
def deliver (value : Json) : List Frame → Place × List Frame
  | [] => (.finished value, [])
  | .items done :: frames => (.afterItem (value :: done), frames)
  | .member done name :: frames => (.afterMember (done.put name value), frames)

/-- The place after a token where a value may start. -/
def startValue (frames : List Frame) : Token → Except ReadFault (Place × List Frame)
  | .openArray => return (.openArray, frames)
  | .openObject => return (.openObject, frames)
  | .text value => return deliver (str value) frames
  | .word read => return deliver (← ofWord read) frames
  | _ => throw .malformed

def advance (place : Place) (frames : List Frame) (token : Token) :
    Except ReadFault (Place × List Frame) :=
  match place, token with
  | .value, token => startValue frames token
  | .openArray, .closeArray => return deliver (arr []) frames
  | .openArray, token => startValue (.items [] :: frames) token
  | .afterItem done, .comma => return (.value, .items done :: frames)
  | .afterItem done, .closeArray => return deliver (arr done.reverse) frames
  | .openObject, .closeObject => return deliver (obj []) frames
  | .openObject, .text name => return (.afterName [] name, frames)
  | .nextName done, .text name => return (.afterName done name, frames)
  | .afterName done name, .colon => return (.value, .member done name :: frames)
  | .afterMember done, .comma => return (.nextName done, frames)
  | .afterMember done, .closeObject => return deliver (obj done) frames
  | _, _ => throw .malformed

/-- The most containers that may stand inside each other. -/
def greatestDepth : Nat := 988

/-- The number of open containers after a token. -/
def depthAfter (depth : Nat) : Token → Nat
  | .openArray => depth + 1
  | .openObject => depth + 1
  | .closeArray => depth - 1
  | .closeObject => depth - 1
  | _ => depth

/-! ## The reader -/

/-- A reader between two characters: what it has begun to read, where it stands, and the containers
around that place with their number. -/
structure Reader where
  lexeme : Lexeme
  place : Place
  frames : List Frame
  depth : Nat

def Reader.token (reader : Reader) (token : Token) : Except ReadFault Reader := do
  let (place, frames) ← advance reader.place reader.frames token
  let depth := depthAfter reader.depth token
  if greatestDepth < depth then throw .tooDeep
  return { reader with place, frames, depth }

def Reader.char (reader : Reader) (c : Char) : Except ReadFault Reader := do
  let (lexeme, tokens) ← scan reader.lexeme c
  tokens.foldlM Reader.token { reader with lexeme }

/-- The JSON value that a text writes. A blank behind the text ends its last word. -/
def read (text : String) : Except ReadFault Json := do
  let start : Reader := ⟨.between, .value, [], 0⟩
  let last ← (← text.toList.foldlM Reader.char start).char ' '
  match last.lexeme, last.place with
  | .between, .finished value => return value
  | _, _ => throw .malformed

end LedgerBook.Json
