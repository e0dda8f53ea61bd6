import TickGate.Record.Basic
import TickGate.Traced

/-!
# Recorders

A recorder receives diagnostic records in the order in which they are made.  A journal keeps
them, and the event stream passes each on to the log.
-/

namespace TickGate

/-- A destination of diagnostic records. -/
class Recorder (ρ : Type) where
  record : ρ → Record → Traced ρ

/-- A recorder that keeps every record, the earliest first. -/
structure Journal where
  records : Array Record := #[]
  deriving DecidableEq, Inhabited

namespace Journal

/-- How many records were received. -/
def size (journal : Journal) : Nat := journal.records.size

/-- Whether no record was received. -/
def isEmpty (journal : Journal) : Bool := journal.records.isEmpty

/-- Keeps one more record. -/
def push (journal : Journal) (record : Record) : Journal := ⟨journal.records.push record⟩

instance : Recorder Journal where
  record journal record := pure (journal.push record)

end Journal

/-- The recorder that passes each record on to the log. -/
structure EventStream where
  deriving DecidableEq, Inhabited

instance : Recorder EventStream where
  record stream record := { value := stream, events := #[.recorded record] }

end TickGate
