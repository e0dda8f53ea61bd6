import TickGate.Record.Recorder

/-!
# Records as lines of text

A `LineWriter` prints each record as one line on a device that accepts bytes until it is
full.  The first failure is kept and ends the printing: later records are dropped, and
`finish` reports it.
-/

namespace TickGate

namespace Device

/-- The reason why a device failed. -/
inductive Failure where
  /-- It accepts no further byte. -/
  | full
  /-- The operating system takes no byte, and gives this reason. -/
  | system (reason : String)
  /-- Its bytes could not be flushed. -/
  | unflushed
  deriving DecidableEq, Repr, Inhabited

/-- The wording of a failure. -/
def Failure.message : Failure → String
  | full => "disk full"
  | system reason => reason
  | unflushed => "flush failed"

end Device

/-- A destination of bytes that may be limited and may fail when it is flushed. -/
structure Device where
  /-- How many bytes it accepts in all, if there is a limit. -/
  capacity : Option Nat := none
  /-- The reason that it gives for a byte beyond the limit. -/
  overflow : Device.Failure := .full
  flushFails : Bool := false
  /-- The bytes accepted so far. -/
  accepted : ByteArray := .empty
  deriving Inhabited

namespace Device

/-- How many further bytes fit, if there is a limit. -/
def room (device : Device) : Option Nat :=
  device.capacity.map (· - device.accepted.size)

/-- Writes bytes, as many of them as fit. -/
def write (device : Device) (bytes : ByteArray) : Except Failure Unit × Device :=
  match device.room with
  | none => (.ok (), { device with accepted := device.accepted ++ bytes })
  | some room =>
    if bytes.size ≤ room then (.ok (), { device with accepted := device.accepted ++ bytes })
    else
      (.error device.overflow, { device with accepted := device.accepted ++ bytes.extract 0 room })

/-- Hands over what was written. -/
def flush (device : Device) : Except Failure Unit :=
  if device.flushFails then .error .unflushed else .ok ()

end Device

/-- A recorder that prints one line for each record. -/
structure LineWriter where
  device : Device := {}
  /-- How many lines were written in full.  Unlike a `Count` it starts again from zero after the
  largest word, where a build that checks for overflow would stop instead. -/
  written : UInt64 := 0
  failure : Option Device.Failure := none
  deriving Inhabited

namespace LineWriter

/-- The bytes of a record's line. -/
def encode (record : Record) : ByteArray := (record.line ++ "\n").toUTF8

/-- Prints one record, unless an earlier one failed. -/
def print (writer : LineWriter) (record : Record) : LineWriter :=
  match writer.failure with
  | some _ => writer
  | none =>
    match writer.device.write (encode record) with
    | (.ok (), device) => { writer with device, written := writer.written + 1 }
    | (.error failure, device) => { writer with device, failure := some failure }

/-- Flushes the device.  The first failure while printing wins over one of the flush. -/
def finish (writer : LineWriter) : Except Device.Failure Device :=
  match writer.failure with
  | some failure => .error failure
  | none => writer.device.flush.map fun _ => writer.device

instance : Recorder LineWriter where
  record writer record := pure (writer.print record)

end LineWriter
end TickGate
