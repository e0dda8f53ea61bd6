import TickGate.CommandLine.Arguments
import TickGate.CommandLine.Usage
import TickGate.Record.LineWriter

/-!
# What the program answers

The bytes on the two output streams, the log, the file written and the exit code, for given
arguments.  What creating the output file leads to is the only thing that the answer needs to know
about the world: a device that takes the lines, or a reason why there is none.  The log is kept as
events, since its lines also tell the time.
-/

namespace TickGate
namespace CommandLine

/-- All that a run of the program leaves behind. -/
structure Response where
  exit : UInt32 := 0
  stdout : ByteArray := .empty
  /-- What stands on the standard error after the log. -/
  stderr : ByteArray := .empty
  /-- The events that the log shows on the standard error. -/
  log : Array Event := #[]
  /-- The path of the file that was created, and the bytes that it took. -/
  file : Option (String × ByteArray) := none

namespace Response

/-- The answer to arguments that are refused.  Only the request for help is worded as the usage
text: `Refusal.startsWith_usage_iff`. -/
def ofRefusal (refusal : Refusal) : Response :=
  if refusal.message.startsWith "Usage:" then
    { exit := 1, stdout := (refusal.message ++ "\n").toUTF8 }
  else { exit := 1, stderr := (s!"error: {refusal.message}\n" ++ usage ++ "\n").toUTF8 }

/-- The text on an output path that cannot be opened. -/
def unopened (path reason : String) : String := s!"error: failed to create {path}: {reason}\n"

/-- The text on lines that could not be written. -/
def unwritten (reason : String) : String := s!"error: failed to write records: {reason}\n"

/-- The summary of a run. -/
def summary (report : Scenario.Report) : String :=
  s!"Simulated {report.ticks} ticks, emitted {report.records} records " ++
    s!"({report.parent.fired} parent, {report.child.fired} child)\n"

/-- What a run leaves behind once its lines go to a device. -/
structure Ending where
  /-- The bytes that the device took. -/
  lines : ByteArray
  /-- How the run ended, in words. -/
  text : String
  exit : UInt32
  /-- The events that the log shows. -/
  log : Array Event

/-- Runs settings over a device. -/
def drive (settings : Settings) (device : Device) : Ending :=
  let writer : LineWriter := { device }
  let register := ShiftRegister.ofSeed settings.seed
  let out := settings.scenario.run register writer
  let (answer, _, writer) := out.value
  let lines := writer.device.accepted
  let log := Event.shown out.events
  match answer with
  | .error fault => { lines, text := s!"error: {fault.message}\n", exit := 1, log }
  | .ok report =>
    match writer.finish with
    | .error failure => { lines, text := unwritten failure.message, exit := 1, log }
    | .ok _ => { lines, text := summary report, exit := 0, log }

/-- The answer of a run that prints its lines. -/
def ofPrinted (settings : Settings) : Response :=
  let ending := drive settings {}
  { exit := ending.exit, stdout := ending.lines, stderr := ending.text.toUTF8, log := ending.log }

/-- The answer of a run that writes its lines to a file. -/
def ofFiled (settings : Settings) (path : String) (device : Device) : Response :=
  let ending := drive settings device
  { exit := ending.exit, stderr := ending.text.toUTF8, log := ending.log
    file := some (path, ending.lines) }

/-- The answer to arguments.  `outlet` says which device creating the file of a path leads to, or
gives the reason why it cannot be created. -/
def ofArguments (build : Build) (outlet : String → Except String Device)
    (arguments : List String) : Response :=
  match Request.parse build arguments with
  | .error refusal => ofRefusal refusal
  | .ok .help => { stdout := (usage ++ "\n").toUTF8 }
  | .ok (.run settings) =>
    match settings.output with
    | none => ofPrinted settings
    | some path =>
      match outlet path with
      | .error reason => { exit := 1, stderr := (unopened path reason).toUTF8 }
      | .ok device => ofFiled settings path device

end Response

end CommandLine
end TickGate
