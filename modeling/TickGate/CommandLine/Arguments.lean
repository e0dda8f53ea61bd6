import TickGate.CommandLine.Usage
import TickGate.Policy.Parse
import TickGate.Scenario
import TickGate.Text.Numeral

/-!
# Arguments

After the command, the arguments form option groups: a flag, with its value where the flag
takes one.  Reading goes from left to right and the first group that cannot be read decides
the refusal.  What a group sets replaces what an earlier group of the same field set.
-/

namespace TickGate
namespace CommandLine

/-- The reason why arguments are refused. -/
inductive Refusal where
  /-- Help was asked for among the options. -/
  | help
  | missingCommand
  /-- The command is none of the program's. -/
  | unknownCommand (text : String)
  /-- A flag that takes a value stands at the end. -/
  | missingValue (flag : String)
  /-- A flag's value cannot be read. -/
  | invalidValue (flag text : String)
  | invalidPolicy (fault : Fault)
  /-- A flag is none of the program's. -/
  | unknownOption (text : String)
  /-- The window's end lies before its start. -/
  | invertedWindow (high low : Tick)
  deriving DecidableEq, Repr

/-- The wording of a refusal.  For help it is the usage text. -/
def Refusal.message : Refusal → String
  | help => usage
  | missingCommand => "missing command"
  | unknownCommand text => s!"unknown command: {text}"
  | missingValue flag => s!"missing value for {flag}"
  | invalidValue flag text => s!"invalid value for {flag}: {text}"
  | invalidPolicy fault => fault.message
  | unknownOption text => s!"unknown option: {text}"
  | invertedWindow high low => s!"--end ({high}) is before --start ({low})"

/-- What one option group sets. -/
inductive Setting where
  | start (tick : Tick)
  | stop (tick : Tick)
  | cycles (count : Tick)
  | seed (word : UInt16)
  | policy (policy : Policy)
  | pulse
  | unwired
  | fallback
  | output (path : String)
  deriving DecidableEq, Repr

/-- What the options of a run amount to. -/
structure Settings where
  scenario : Scenario
  seed : UInt16 := ShiftRegister.defaultSeed
  /-- The file to write records to, if not the standard output. -/
  output : Option String := none
  deriving DecidableEq

namespace Settings

/-- The settings of a run without options. -/
protected def default (build : Build) : Settings := { scenario := .default build }

/-- Whether the window is not inverted. -/
def isOrdered (settings : Settings) : Bool :=
  settings.scenario.window.low ≤ settings.scenario.window.high

/-- The settings after one more option group. -/
def set (settings : Settings) : Setting → Settings
  | .start tick => { settings with scenario.window.low := tick }
  | .stop tick => { settings with scenario.window.high := tick }
  | .cycles count => { settings with scenario.cycles := count }
  | .seed word => { settings with seed := word }
  | .policy policy => { settings with scenario.options.policy := policy }
  | .pulse => { settings with scenario.options.edgeMode := true }
  | .unwired => { settings with scenario.wired := false }
  | .fallback => { settings with scenario.options.fallback := true }
  | .output path => { settings with output := some path }

end Settings

/-- The fields that are set to a value. -/
inductive Field where
  | start
  | stop
  | cycles
  | seed
  | policy
  | output
  deriving DecidableEq, Repr

/-- What a flag asks for. -/
inductive Flag where
  | help
  /-- A setting that needs no value. -/
  | switch (setting : Setting)
  /-- A setting to the value that follows. -/
  | valued (field : Field)
  deriving DecidableEq, Repr

/-- The flags by their spellings. -/
def Flag.spellings : List (String × Flag) :=
  [("--help", help), ("-h", help), ("--start", valued .start), ("--end", valued .stop),
    ("--cycles", valued .cycles), ("--seed", valued .seed), ("--policy", valued .policy),
    ("--pulse", switch .pulse), ("--unwired", switch .unwired), ("--fallback", switch .fallback),
    ("-o", valued .output), ("--output", valued .output)]

/-- The flag that an argument spells. -/
def Flag.ofText? (text : String) : Option Flag := spellings.lookup text

/-- Reads a tick or a number of ticks: a decimal numeral below 2^64. -/
def tick? (text : String) : Option Tick :=
  (Text.numeralBelow? 10 UInt64.size text.toList).map UInt64.ofNat

/-- Reads a seed: a numeral below 2^16, hexadecimal after `0x` or `0X` and decimal otherwise. -/
def seed? (text : String) : Option UInt16 :=
  let value := match text.toList with
    | '0' :: 'x' :: digits => Text.numeralBelow? 16 UInt16.size digits
    | '0' :: 'X' :: digits => Text.numeralBelow? 16 UInt16.size digits
    | digits => Text.numeralBelow? 10 UInt16.size digits
  value.map UInt16.ofNat

/-- Reads the value of a field that was given after the flag `flag`. -/
def Field.read (field : Field) (flag text : String) : Except Refusal Setting :=
  let orInvalid : Option Setting → Except Refusal Setting
    | some setting => .ok setting
    | none => .error (.invalidValue flag text)
  match field with
  | start => orInvalid ((tick? text).map .start)
  | stop => orInvalid ((tick? text).map .stop)
  | cycles => orInvalid ((tick? text).map .cycles)
  | seed => orInvalid ((seed? text).map .seed)
  | policy =>
    match Policy.parse text with
    | .ok parsed => .ok (.policy parsed)
    | .error fault => .error (.invalidPolicy fault)
  | output => .ok (.output text)

/-- Reads option groups from left to right, after the groups `found`, the last of them first. -/
def settingsFrom (found : List Setting) : List String → Except Refusal (List Setting)
  | [] => .ok found.reverse
  | flag :: rest =>
    match Flag.ofText? flag with
    | none => .error (.unknownOption flag)
    | some .help => .error .help
    | some (.switch setting) => settingsFrom (setting :: found) rest
    | some (.valued field) =>
      match rest with
      | [] => .error (.missingValue flag)
      | text :: rest =>
        match field.read flag text with
        | .error refusal => .error refusal
        | .ok setting => settingsFrom (setting :: found) rest

/-- Reads the options of a run. -/
def Settings.parse (build : Build) (options : List String) : Except Refusal Settings :=
  match settingsFrom [] options with
  | .error refusal => .error refusal
  | .ok found =>
    let settings := found.foldl Settings.set (.default build)
    if settings.isOrdered then .ok settings
    else .error (.invertedWindow settings.scenario.window.high settings.scenario.window.low)

/-- What the program is asked to do. -/
inductive Request where
  | help
  | run (settings : Settings)
  deriving DecidableEq

/-- Reads the arguments of the program. -/
def Request.parse (build : Build) : List String → Except Refusal Request
  | [] => .error .missingCommand
  | command :: options =>
    if command = "--help" ∨ command = "-h" then .ok .help
    else if command = "run" then (Settings.parse build options).map .run
    else .error (.unknownCommand command)

end CommandLine
end TickGate
