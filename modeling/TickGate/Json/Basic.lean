/-!
# JSON values and their tokens

A JSON text is a sequence of tokens, and a value determines its tokens.  Two things that the
readers of this library never need are not kept: the value of a number that is not a plain
natural number, and a text whose escapes do not spell Unicode characters.
-/

namespace TickGate
namespace Json

/-- A value without parts. -/
inductive Atom where
  | null
  | bool (value : Bool)
  /-- A number written with digits only. -/
  | natural (value : Nat)
  /-- A number written with a sign, a fraction or an exponent. -/
  | number
  /-- A text, or none where its escapes leave a surrogate unpaired. -/
  | text (content : Option String)
  deriving DecidableEq, Repr, Inhabited

/-- The pieces of a JSON text. -/
inductive Token where
  | openArray
  | closeArray
  | openObject
  | closeObject
  | comma
  | colon
  | atom (atom : Atom)
  deriving DecidableEq, Repr

end Json

/-- A JSON value. -/
inductive Json where
  | atom (atom : Json.Atom)
  | array (items : List Json)
  | object (members : List (Option String × Json))

namespace Json

/-- The value of a text. -/
def text (content : String) : Json := atom (.text (some content))

/-- The value of a truth value. -/
def bool (value : Bool) : Json := atom (.bool value)

/-- The value of a natural number. -/
def natural (value : Nat) : Json := atom (.natural value)

/-- An object from its members in order. -/
def record (members : List (String × Json)) : Json :=
  object (members.map fun member => (some member.1, member.2))

mutual

/-- The tokens of a value. -/
def tokens : Json → List Token
  | .atom a => [.atom a]
  | .array [] => [.openArray, .closeArray]
  | .array (item :: items) =>
    .openArray :: (tokens item ++ (itemTokens items ++ [.closeArray]))
  | .object [] => [.openObject, .closeObject]
  | .object ((key, value) :: members) =>
    .openObject :: .atom (.text key) :: .colon ::
      (tokens value ++ (memberTokens members ++ [.closeObject]))

/-- The tokens of items that follow another item. -/
def itemTokens : List Json → List Token
  | [] => []
  | item :: items => .comma :: (tokens item ++ itemTokens items)

/-- The tokens of members that follow another member. -/
def memberTokens : List (Option String × Json) → List Token
  | [] => []
  | (key, value) :: members =>
    .comma :: .atom (.text key) :: .colon :: (tokens value ++ memberTokens members)

end

end Json
end TickGate
