import TickGate.Tick
import TickGate.Text.Numeral

/-!
# Diagnostic records

A record is one diagnostic line: the tick it was made in, the scope it speaks of and its
message.
-/

namespace TickGate

/-- One diagnostic line. -/
structure Record where
  tick : Tick
  /-- The part of the observed system that it speaks of. -/
  scope : String
  message : String
  deriving DecidableEq, Repr, Inhabited

namespace Record

/-- The printed form: the tick right-aligned in eight columns, the scope and the message. -/
def line (record : Record) : String :=
  let tick := String.ofList (Text.padLeft 8 ' ' (Text.decimal record.tick.toNat))
  s!"[{tick}] {record.scope}: {record.message}"

end Record
end TickGate
