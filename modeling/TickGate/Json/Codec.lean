import TickGate.Json.Parser

/-!
# Values as JSON

A codec writes the values of a type as JSON and reads them back.  A record is read from an
object or from an array of its fields in order, and a word from a text or from an object whose
only key is the word.  Nothing is converted: a number is not read as a text, nor a text as a
number.
-/

namespace TickGate

/-- The written form of the values of a type. -/
class Codec (α : Type) where
  /-- The written form of a value. -/
  encode : α → Json
  /-- The value that a written form stands for. -/
  decode? : Json → Option α

namespace Codec

/-- Reads a value from a text. -/
def read? {α : Type} [Codec α] (source : String) : Option α :=
  (Json.parse? source).bind decode?

/-- Writes a value as a text. -/
def write {α : Type} [Codec α] (value : α) : String := (encode value).render

/-- Reads a text as a value of `α` and writes the value again. -/
def normalize? (α : Type) [Codec α] (source : String) : Option String :=
  (read? source : Option α).map write

end Codec

namespace Json

/-! ## Records -/

/-- The value of the first member of a name. -/
def member? (name : String) : List (Option String × Json) → Option Json
  | [] => none
  | (key, value) :: members => if key = some name then some value else member? name members

/-- The values of a record's fields, given by name in an object or by position in an array.
Members of other names are passed over, but every key must be readable, and no field may be
given twice. -/
def fields? (names : List String) : Json → Option (List (Option Json))
  | .object members =>
    if members.all (fun member => member.1.isSome) &&
        names.all (fun name => members.countP (fun member => member.1 = some name) ≤ 1) then
      some (names.map fun name => member? name members)
    else none
  | .array items =>
    if items.length ≤ names.length then
      some (items.map some ++ List.replicate (names.length - items.length) none)
    else none
  | .atom _ => none

/-- The value of a field that must be given. -/
def required? {α : Type} [Codec α] (field : Option Json) : Option α := field.bind Codec.decode?

/-- The value of a field that has a default. -/
def optional? {α : Type} [Codec α] (default : α) : Option Json → Option α
  | none => some default
  | some field => Codec.decode? field

/-! ## Words -/

/-- The word that a JSON value spells: a text, or an object with one key and the value null. -/
def word? : Json → Option String
  | .atom (.text word) => word
  | .object [(word, .atom .null)] => word
  | _ => none

/-- The value among `values` that is spelled as `json`. -/
def choice? {α : Type} (word : α → String) (values : List α) (json : Json) : Option α :=
  (word? json).bind fun spelled => values.find? fun value => word value == spelled

end Json

/-! ## Plain values -/

instance : Codec Bool where
  encode value := .bool value
  decode?
    | .atom (.bool value) => some value
    | _ => none

instance : Codec UInt64 where
  encode value := .natural value.toNat
  decode?
    | .atom (.natural value) => if value < UInt64.size then some (.ofNat value) else none
    | _ => none

instance : Codec String where
  encode value := .text value
  decode?
    | .atom (.text content) => content
    | _ => none

end TickGate
