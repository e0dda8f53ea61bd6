import TickGate.Policy.Basic
import TickGate.Record.Basic

/-!
# Log events

What the operations of the library report while they work.  An event is kept as data;
`severity`, `message` and `fields` give its three written parts.
-/

namespace TickGate

/-- How much attention an event asks for. -/
inductive Severity where
  | trace
  | debug
  | info
  | warn
  deriving DecidableEq, Repr

/-- The written name of a severity. -/
def Severity.name : Severity → String
  | trace => "TRACE"
  | debug => "DEBUG"
  | info => "INFO"
  | warn => "WARN"

/-- Whether the log shows events of a severity where its filter is not set. -/
def Severity.isShown : Severity → Bool
  | trace | debug | info => false
  | warn => true

/-- Something that an operation reports. -/
inductive Event where
  /-- A tick began on a registry with so many declared sources. -/
  | tickBegins (tick : Tick) (declared : Nat)
  | published (id : SourceId) (tick : Tick) (value : Bool)
  /-- A source published again, and its earlier value is about to be replaced. -/
  | overwritten (id : SourceId) (tick : Tick) (previous value : Bool)
  /-- A tick was sealed with so many published values. -/
  | sealed (tick : Tick) (published : Nat)
  /-- A trigger decided over at least one source. -/
  | decided (tick : Tick) (policy : Policy) (decision : Bool)
  | recorded (record : Record)
  | scenarioStarting (low high cycles : Tick) (policy : Policy) (edgeMode wired : Bool)
  /-- A scenario ran to its end and made so many records. -/
  | scenarioFinished (records : Count)
  deriving DecidableEq, Repr

namespace Event

/-- The value of a field of an event. -/
inductive Datum where
  | number (value : Nat)
  | flag (value : Bool)
  | text (value : String)
  deriving DecidableEq, Repr

/-- How much attention the event asks for. -/
def severity : Event → Severity
  | tickBegins .. | .sealed .. | scenarioStarting .. | scenarioFinished .. => .debug
  | published .. | decided .. => .trace
  | overwritten .. => .warn
  | recorded .. => .info

/-- The sentence of the event. -/
def message : Event → String
  | tickBegins .. => "trigger tick begins"
  | published .. => "trigger published"
  | overwritten .. => "trigger source published twice in one tick, keeping last write"
  | .sealed .. => "trigger tick sealed"
  | decided .. => "trigger sink decided"
  | recorded record => record.message
  | scenarioStarting .. => "scenario starting"
  | scenarioFinished .. => "scenario finished"

/-- The named values that go with the sentence. -/
def fields : Event → List (String × Datum)
  | tickBegins tick declared => [("tick", .number tick.toNat), ("declared", .number declared)]
  | published id tick value =>
    [("id", .text id), ("tick", .number tick.toNat), ("value", .flag value)]
  | overwritten id tick previous value =>
    [("id", .text id), ("tick", .number tick.toNat), ("previous", .flag previous),
      ("value", .flag value)]
  | .sealed tick count => [("tick", .number tick.toNat), ("published", .number count)]
  | decided tick policy decision =>
    [("tick", .number tick.toNat), ("policy", .text policy.name), ("decision", .flag decision)]
  | recorded record => [("tick", .number record.tick.toNat), ("scope", .text record.scope)]
  | scenarioStarting low high cycles policy edgeMode wired =>
    [("low", .number low.toNat), ("high", .number high.toNat), ("cycles", .number cycles.toNat),
      ("policy", .text policy.name), ("edge_mode", .flag edgeMode), ("wired", .flag wired)]
  | scenarioFinished records => [("records", .number records.toNat)]

/-- The events that the log shows where its filter is not set. -/
def shown (events : Array Event) : Array Event := events.filter fun event => event.severity.isShown

end Event
end TickGate
