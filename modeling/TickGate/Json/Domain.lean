import TickGate.Json.Codec
import TickGate.Gate.Counts
import TickGate.Options
import TickGate.Record.Basic
import TickGate.Window

/-!
# The written forms of the library's values

Configurations, windows, records and counts as JSON.
-/

namespace TickGate

instance : Codec Policy where
  encode policy := .text policy.word
  decode? := Json.choice? Policy.word Policy.every

/-- Every rule for repeated publishes. -/
def DuplicateRule.every : List DuplicateRule := [reject, lastWriteWins]

instance : Codec DuplicateRule where
  encode rule := .text rule.word
  decode? := Json.choice? DuplicateRule.word DuplicateRule.every

/-- Every edge. -/
def Edge.every : List Edge := [rising, falling, both]

instance : Codec Edge where
  encode edge := .text edge.word
  decode? := Json.choice? Edge.word Edge.every

instance : Codec Mode where
  encode
    | .level => .text "level"
    | .pulse edge => .record [("pulse", Codec.encode edge)]
  decode?
    | .object [(some "pulse", edge)] => (Codec.decode? edge).map Mode.pulse
    | json => if Json.word? json = some "level" then some .level else none

namespace Options

/-- The names of the fields, in the order in which they are declared. -/
def names : List String := ["policy", "fallback_when_unpublished", "edge_mode", "duplicate_policy"]

/-- Reads options.  A field that is missing has the default of the build. -/
def decode? (build : Build) (json : Json) : Option Options := do
  match ← json.fields? names with
  | [policy, fallback, edgeMode, duplicateRule] =>
    let default := Options.default build
    let policy ← Json.optional? default.policy policy
    let fallback ← Json.optional? default.fallback fallback
    let edgeMode ← Json.optional? default.edgeMode edgeMode
    let duplicateRule ← Json.optional? default.duplicateRule duplicateRule
    some { policy, fallback, edgeMode, duplicateRule }
  | _ => none

/-- The written form of options in a build. -/
@[reducible]
def codec (build : Build) : Codec Options where
  encode options := .record
    [("policy", Codec.encode options.policy),
      ("fallback_when_unpublished", Codec.encode options.fallback),
      ("edge_mode", Codec.encode options.edgeMode),
      ("duplicate_policy", Codec.encode options.duplicateRule)]
  decode? := decode? build

/-- Reads options from a text. -/
def read? (build : Build) (source : String) : Option Options :=
  @Codec.read? Options (codec build) source

end Options

instance : Codec Window where
  encode window := .record
    [("low", Codec.encode window.low), ("high", Codec.encode window.high)]
  decode? json := do
    match ← json.fields? ["low", "high"] with
    | [low, high] =>
      let low ← Json.required? low
      let high ← Json.required? high
      some { low, high }
    | _ => none

instance : Codec Record where
  encode record := .record
    [("tick", Codec.encode record.tick), ("scope", Codec.encode record.scope),
      ("message", Codec.encode record.message)]
  decode? json := do
    match ← json.fields? ["tick", "scope", "message"] with
    | [tick, scope, message] =>
      let tick ← Json.required? tick
      let scope ← Json.required? scope
      let message ← Json.required? message
      some { tick, scope, message }
    | _ => none

instance : Codec Gate.Counts where
  encode counts := .record
    [("fired", Codec.encode counts.fired), ("suppressed", Codec.encode counts.suppressed),
      ("repeated", Codec.encode counts.repeated)]
  decode? json := do
    match ← json.fields? ["fired", "suppressed", "repeated"] with
    | [fired, suppressed, repeated] =>
      let fired ← Json.required? fired
      let suppressed ← Json.required? suppressed
      let repeated ← Json.required? repeated
      some { fired, suppressed, repeated }
    | _ => none

instance : Codec Registry.Counts where
  encode counts := .record
    [("ticks", Codec.encode counts.ticks), ("publishes", Codec.encode counts.publishes),
      ("duplicates", Codec.encode counts.duplicates)]
  decode? json := do
    match ← json.fields? ["ticks", "publishes", "duplicates"] with
    | [ticks, publishes, duplicates] =>
      let ticks ← Json.required? ticks
      let publishes ← Json.required? publishes
      let duplicates ← Json.required? duplicates
      some { ticks, publishes, duplicates }
    | _ => none

end TickGate
