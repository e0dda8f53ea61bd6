import TickGate.Json.Lexer

/-!
# Reading and writing values

The tokens of a text are read one after the other.  What has been opened and not yet closed is
kept as a stack of frames, the innermost first, so that reading a token looks at the top of the
stack only.  Writing spells the tokens of a value without spaces.
-/

namespace TickGate
namespace Json

/-- An array or object of which a part has been read. -/
inductive Frame where
  /-- An array that waits for an item after those read, the last of them first. -/
  | array (items : List Json)
  /-- An object that waits for the value of a member after those read, the last of them first. -/
  | object (members : List (Option String × Json)) (key : Option String)

/-- What the tokens read so far leave to be read. -/
inductive Progress where
  /-- A value must begin. -/
  | value (outer : List Frame)
  /-- The first item of an array must begin, or the array ends. -/
  | firstItem (outer : List Frame)
  /-- The first key of an object must come, or the object ends. -/
  | firstKey (outer : List Frame)
  /-- Another key of an object must come. -/
  | key (members : List (Option String × Json)) (outer : List Frame)
  /-- The colon after a key must come. -/
  | colon (members : List (Option String × Json)) (key : Option String) (outer : List Frame)
  /-- A value has ended. -/
  | ended (value : Json) (outer : List Frame)

namespace Progress

/-- The token at which a value begins. -/
def start? (outer : List Frame) : Token → Option Progress
  | .openArray => some (firstItem outer)
  | .openObject => some (firstKey outer)
  | .atom a => some (ended (.atom a) outer)
  | _ => none

/-- One more token, where the text may go on with it. -/
def next? : Progress → Token → Option Progress
  | value outer, token => start? outer token
  | firstItem outer, .closeArray => some (ended (.array []) outer)
  | firstItem outer, token => start? (.array [] :: outer) token
  | firstKey outer, .closeObject => some (ended (.object []) outer)
  | firstKey outer, .atom (.text k) => some (colon [] k outer)
  | key members outer, .atom (.text k) => some (colon members k outer)
  | colon members k outer, .colon => some (value (.object members k :: outer))
  | ended v (.array items :: outer), .comma => some (value (.array (v :: items) :: outer))
  | ended v (.array items :: outer), .closeArray =>
    some (ended (.array (v :: items).reverse) outer)
  | ended v (.object members k :: outer), .comma => some (key ((k, v) :: members) outer)
  | ended v (.object members k :: outer), .closeObject =>
    some (ended (.object ((k, v) :: members).reverse) outer)
  | _, _ => none

/-- The value, if nothing is left to be read. -/
def result? : Progress → Option Json
  | ended v [] => some v
  | _ => none

end Progress

/-- The value that has these tokens. -/
def ofTokens? (tokens : List Token) : Option Json :=
  (tokens.foldlM Progress.next? (.value [])).bind Progress.result?

/-- Reads a value from a text. -/
def parse? (source : String) : Option Json := (lex? source).bind ofTokens?

/-- Writes a value without spaces. -/
def render (json : Json) : String := String.ofList (json.tokens.flatMap Token.spell)

end Json
end TickGate
