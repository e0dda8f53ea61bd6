import TickGate.Gate.Basic
import TickGate.Options
import TickGate.Payload
import TickGate.Record.Recorder
import TickGate.Source.Basic

/-!
# The window scenario

A payload is watched by a parent and a child scope, which both make a record in each tick in
which their trigger decides true.  The trigger is wired to one source that is high inside a
window, or to none.  The payload advances in every tick, whatever the trigger decides.
-/

namespace TickGate

/-- The settings of a scenario. -/
structure Scenario where
  window : Window := ⟨100, 1000⟩
  /-- How many ticks run, from tick zero on. -/
  cycles : Tick := 1200
  options : Options
  wired : Bool := true
  deriving DecidableEq, Repr

namespace Scenario

/-- The scenario for which no settings are chosen. -/
protected def default (build : Build) : Scenario := { options := .default build }

/-- The name of the scenario's source. -/
def sourceId : SourceId := "enable"

/-- The scope of the parent's records. -/
def parentScope : String := "top"

/-- The scope of the child's records. -/
def childScope : String := "top.child"

/-- What a run of a scenario amounted to. -/
structure Report where
  ticks : Tick
  parent : Gate.Counts
  child : Gate.Counts
  registry : Registry.Counts
  /-- The payload's word in the last tick. -/
  finalPayload : UInt16
  deriving DecidableEq, Repr

/-- The records made by parent and child together. -/
def Report.records (report : Report) : Count := report.parent.fired.plus report.child.fired

/-- The parity of the bits set in a word. -/
def parity (word : UInt16) : Nat :=
  ((List.range 16).countP word.toNat.testBit) % 2

/-- The parent's record of a word. -/
def parentRecord (tick : Tick) (word : UInt16) : Record :=
  let digits := String.ofList (Text.hexadecimal4 word.toNat)
  { tick, scope := parentScope, message := s!"lfsr = 0x{digits}" }

/-- The child's record of a word. -/
def childRecord (tick : Tick) (word : UInt16) : Record :=
  { tick, scope := childScope, message := s!"parity = {parity word}" }

/-- The source of a scenario, high inside its window. -/
def source (scenario : Scenario) : Source Unit :=
  .probe
    { id := sourceId, condition := .within scenario.window, mode := scenario.options.mode }

/-- The registry before the first tick.  It expects the source if there is one. -/
def registry (scenario : Scenario) : Registry :=
  if scenario.wired then (scenario.source.attach scenario.options.registry).2
  else scenario.options.registry

/-- The trigger that both scopes share. -/
def trigger (scenario : Scenario) : Except Fault Trigger :=
  if scenario.wired then scenario.options.trigger [sourceId]
  else .ok (.unwired scenario.options.fallback)

/-- The part of a run that the phases of a tick change, besides the registry. -/
structure Scope (ρ : Type) where
  source : Source Unit
  parent : Gate
  child : Gate
  recorder : ρ

/-- A scenario between two ticks. -/
structure Run (π ρ : Type) where
  registry : Registry
  scope : Scope ρ
  payload : π
  /-- The payload's word in the last tick. -/
  word : UInt16 := 0

variable {π ρ : Type} [Payload π] [Recorder ρ]

/-- The publishing phase: the source publishes, if the scenario has one. -/
def publish (wired : Bool) (tick : Tick) (registry : Registry) (scope : Scope ρ) :
    Traced (Except Fault Unit × Registry × Scope ρ) :=
  if wired then do
    let (answer, source, registry) ← scope.source.publish registry tick ()
    pure (answer.map fun _ => (), registry, { scope with source })
  else pure (.ok (), registry, scope)

/-- The deciding phase: the parent may make its record, then the child. -/
def decide (tick : Tick) (word : UInt16) (registry : Registry) (scope : Scope ρ) :
    Traced (Unit × Scope ρ) := do
  let emit (record : Record) (recorder : ρ) : Traced (Unit × ρ) := do
    let recorder ← Recorder.record recorder record
    pure ((), recorder)
  let ⟨source, parent, child, recorder⟩ := scope
  let (_, parent, recorder) ← parent.fire registry tick (emit (parentRecord tick word)) recorder
  let (_, child, recorder) ← child.fire registry tick (emit (childRecord tick word)) recorder
  pure ((), ⟨source, parent, child, recorder⟩)

/-- One tick of a run. -/
def step (wired : Bool) (tick : Tick) (run : Run π ρ) : Traced (Except Fault Unit × Run π ρ) := do
  let (word, payload) := Payload.next run.payload
  let (answer, registry, scope) ←
    run.registry.runTick tick (publish wired tick) (decide tick word) run.scope
  pure (answer, { registry, scope, payload, word })

/-- Runs so many ticks from `tick` on, after a run that has reported events, and stops at the
first fault. -/
def ticks (wired : Bool) : Nat → Tick → Traced (Run π ρ) → Traced (Except Fault Unit × Run π ρ)
  | 0, _, ⟨run, events⟩ => ⟨(.ok (), run), events⟩
  | count + 1, tick, ⟨run, events⟩ =>
    match step wired tick run with
    | ⟨(.ok (), run), new⟩ => ticks wired count (tick + 1) ⟨run, events ++ new⟩
    | ⟨(.error fault, run), new⟩ => ⟨(.error fault, run), events ++ new⟩

/-- Runs a scenario over a payload and hands its records to a recorder. -/
def run (scenario : Scenario) (payload : π) (recorder : ρ) :
    Traced (Except Fault Report × π × ρ) :=
  match scenario.trigger with
  | .error fault => pure (.error fault, payload, recorder)
  | .ok trigger => do
    let gate : Gate := { trigger }
    let scope := { source := scenario.source, parent := gate, child := gate, recorder }
    let starting :=
      #[.scenarioStarting scenario.window.low scenario.window.high scenario.cycles
        scenario.options.policy scenario.options.edgeMode scenario.wired]
    let (answer, run) ←
      ticks scenario.wired scenario.cycles.toNat 0
        ⟨{ registry := scenario.registry, scope, payload }, starting⟩
    match answer with
    | .error fault => pure (.error fault, run.payload, run.scope.recorder)
    | .ok () =>
      let report : Report :=
        { ticks := scenario.cycles
          parent := run.scope.parent.counts
          child := run.scope.child.counts
          registry := run.registry.counts
          finalPayload := run.word }
      Traced.report (.scenarioFinished report.records)
      pure (.ok report, run.payload, run.scope.recorder)

end Scenario
end TickGate
