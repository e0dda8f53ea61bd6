import TickGate.Barrier
import TickGate.Json.Domain
import TickGate.Main
import TickGate.Registry.Lemmas
import TickGate.Proofs.Registry.Tracking
import TickGate.Proofs.Session
import TickGate.Proofs.Registry.History
import TickGate.Proofs.Barrier.Agreement
import TickGate.Proofs.Source.Value
import TickGate.Proofs.Trigger.Meaning
import TickGate.Proofs.Pipeline
import TickGate.Proofs.Scenario.Wording
import TickGate.Proofs.Scenario.Emission
import TickGate.Proofs.Barrier.Refinement
import TickGate.Proofs.Gate.Discipline
import TickGate.Proofs.Barrier.Phases
import TickGate.Proofs.Barrier.Completeness
import TickGate.Proofs.Registry.Growth
import TickGate.Proofs.Registry.Script
import TickGate.Proofs.Registry.Conservation
import TickGate.Proofs.Freshness
import TickGate.Proofs.Scenario.Observation
import TickGate.Proofs.Source.Recording
import TickGate.Proofs.Json.RoundTrip
import TickGate.Proofs.Source.Refusal
import TickGate.Proofs.Log.Replay
import TickGate.Proofs.Log.State
import TickGate.Proofs.CommandLine.Answers
import TickGate.Proofs.Source.Edges
import TickGate.Proofs.Barrier.Recovery
import TickGate.Proofs.Interleaving
import TickGate.Proofs.Barrier.Independence
import TickGate.Proofs.Registry.Gating
import TickGate.Proofs.Source.Totals
import TickGate.Proofs.Trigger.Reading
import TickGate.Proofs.Trigger.Algebra
import TickGate.Proofs.Trigger.Construction
import TickGate.Proofs.Gate.Forms
import TickGate.Proofs.Record.Printing
import TickGate.Proofs.Record.Reading
import TickGate.Proofs.Scenario.Decoding
import TickGate.Proofs.CommandLine.Grammar
import TickGate.Proofs.Text.Positional
import TickGate.Proofs.Policy.Naming
import TickGate.Proofs.Payload.Period
import TickGate.Proofs.CommandLine.Values
import TickGate.Proofs.Json.Literals
import TickGate.Proofs.Json.Grammar
import TickGate.Proofs.Json.Members
import TickGate.Proofs.Options
import TickGate.Proofs.Registry.Missing
import TickGate.Proofs.Window
import TickGate.Proofs.Scenario.Log
