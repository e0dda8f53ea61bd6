import TickGate.Fault
import TickGate.Registry.Counts
import TickGate.Snapshot
import TickGate.Traced

/-!
# The registry

A registry holds the snapshot of the current tick and the sources that are expected to
publish in every tick.  Beginning a tick drops the earlier values; `runTick` publishes
first and decides afterwards, and decides only over a complete snapshot.
-/

namespace TickGate

/-- How the library is compiled. -/
inductive Build where
  /-- With debug assertions. -/
  | debug
  /-- Without them. -/
  | release
  deriving DecidableEq, Repr

/-- What happens when a source publishes again within one tick. -/
inductive DuplicateRule where
  /-- The second publish fails and the first value stays. -/
  | reject
  /-- The second value replaces the first. -/
  | lastWriteWins
  deriving DecidableEq, Repr

namespace DuplicateRule

/-- The word for a rule in configurations. -/
def word : DuplicateRule → String
  | reject => "reject"
  | lastWriteWins => "last_write_wins"

/-- The rule where none is chosen.  Hosts that need the same rule in all builds choose one. -/
protected def default : Build → DuplicateRule
  | .debug => reject
  | .release => lastWriteWins

end DuplicateRule

/-- The current tick's values and the sources expected to publish. -/
structure Registry where
  snapshot : Snapshot := .empty
  /-- The sources expected to publish in every tick. -/
  declared : IdSet := .empty
  duplicateRule : DuplicateRule
  counts : Registry.Counts := {}
  deriving DecidableEq

namespace Registry

/-- A registry before its first tick. -/
def new (rule : DuplicateRule) : Registry := { duplicateRule := rule }

/-- A registry for which no rule is chosen. -/
protected def default (build : Build) : Registry := new (.default build)

/-- The current tick, if one has begun. -/
def currentTick (registry : Registry) : Option Tick := registry.snapshot.tick

/-- What a source published in the current tick. -/
def read (registry : Registry) (id : SourceId) : Option Bool := registry.snapshot.read id

instance : View Registry where
  tick := Registry.currentTick
  read := Registry.read

/-- Expects a source to publish in every tick.  The answer tells whether it is new. -/
def declare (registry : Registry) (id : SourceId) : Bool × Registry :=
  (!registry.declared.contains id, { registry with declared := registry.declared.insert id () })

/-- Starts a tick in which nothing has been published. -/
def beginTick (registry : Registry) (tick : Tick) : Traced Registry where
  value := { registry with snapshot := .ofTick tick, counts := registry.counts.countTick }
  events := #[.tickBegins tick registry.declared.size]

/-- Stores a value in the snapshot and counts it. -/
def store (registry : Registry) (id : SourceId) (value : Bool) : Registry :=
  { registry with
    snapshot := registry.snapshot.insert id value
    counts := registry.counts.countPublish }

/-- Counts a repeated publish. -/
def countDuplicate (registry : Registry) : Registry :=
  { registry with counts := registry.counts.countDuplicate }

/-- Publishes a value for the current tick. -/
def publish (registry : Registry) (id : SourceId) (value : Bool) :
    Traced (Except Fault Unit × Registry) :=
  match registry.currentTick with
  | none => pure (.error .noActiveTick, registry)
  | some tick =>
    match registry.read id, registry.duplicateRule with
    | none, _ =>
      { value := (.ok (), registry.store id value)
        events := #[.published id tick value] }
    | some _, .reject => pure (.error (.duplicatePublish id tick), registry.countDuplicate)
    | some previous, .lastWriteWins =>
      { value := (.ok (), registry.countDuplicate.store id value)
        events := #[.overwritten id tick previous value, .published id tick value] }

/-- The expected sources that are silent in the current tick, in ascending order. -/
def missing (registry : Registry) : List SourceId :=
  registry.declared.keys.filter fun id => (registry.read id).isNone

/-- Whether every expected source has published. -/
def isComplete (registry : Registry) : Bool :=
  registry.declared.keys.all fun id => (registry.read id).isSome

/-- Runs one tick: `publish` may do anything to the registry, `decide` only looks at it and is
run only if `publish` succeeded and left no expected source silent.  Both may also change the
host's own state. -/
def runTick {σ ρ : Type} (registry : Registry) (tick : Tick)
    (publish : Registry → σ → Traced (Except Fault Unit × Registry × σ))
    (decide : Registry → σ → Traced (ρ × σ)) (host : σ) :
    Traced (Except Fault ρ × Registry × σ) := do
  let registry ← registry.beginTick tick
  let (answer, registry, host) ← publish registry host
  match answer with
  | .error fault => pure (.error fault, registry, host)
  | .ok () =>
    match registry.missing with
    | [] =>
      let (result, host) ← decide registry host
      pure (.ok result, registry, host)
    | missing => pure (.error (.incompleteSnapshot tick missing), registry, host)

end Registry
end TickGate
