import TickGate.Board

/-!
# The barrier between publishing and deciding

A `Barrier` is a registry whose ticks have two phases.  While a tick is publishing, sources
may publish and nobody can read; sealing it hands out one snapshot, after which readers may
decide and nobody can publish.  Each operation is one atomic step, so concurrent callers see
some order of these steps.  A caller that dies within a step is left out: the barrier would go on
from the state that it holds.
-/

namespace TickGate

/-- The phase of the current tick. -/
inductive Phase where
  | idle
  /-- Sources may publish; readers wait. -/
  | publishing
  /-- Readers may decide over the sealed snapshot. -/
  | deciding (sealed : Snapshot)
  deriving DecidableEq, Inhabited

/-- The name of a phase. -/
def Phase.name : Phase → String
  | idle => "idle"
  | publishing => "publish"
  | deciding _ => "decide"

/-- A registry with separate phases for publishing and deciding. -/
structure Barrier where
  registry : Registry
  phase : Phase := .idle
  deriving DecidableEq

namespace Barrier

/-- An idle barrier before its first tick. -/
def new (rule : DuplicateRule) : Barrier := { registry := .new rule }

/-- A barrier for which no rule is chosen. -/
protected def default (build : Build) : Barrier := new (.default build)

/-- The current tick, if one has begun. -/
def currentTick (barrier : Barrier) : Option Tick := barrier.registry.currentTick

/-- The counts of the registry behind the barrier. -/
def counts (barrier : Barrier) : Registry.Counts := barrier.registry.counts

/-- The fault that speaks of the current tick, or that there is none. -/
def faultAt (barrier : Barrier) (fault : Tick → Fault) : Fault :=
  match barrier.currentTick with
  | none => .noActiveTick
  | some tick => fault tick

/-- Expects a source to publish in every tick.  The answer tells whether it is new. -/
def declare (barrier : Barrier) (id : SourceId) : Bool × Barrier :=
  let (isNew, registry) := barrier.registry.declare id
  (isNew, { barrier with registry })

/-- Starts the publishing phase of a tick. -/
def beginTick (barrier : Barrier) (tick : Tick) : Traced Barrier := do
  let registry ← barrier.registry.beginTick tick
  pure { registry, phase := .publishing }

/-- Publishes a value, in the publishing phase only. -/
def publish (barrier : Barrier) (id : SourceId) (value : Bool) :
    Traced (Except Fault Unit × Barrier) :=
  match barrier.phase with
  | .idle => pure (.error .noActiveTick, barrier)
  | .deciding _ => pure (.error (barrier.faultAt (.publishAfterSeal id)), barrier)
  | .publishing => do
    let (answer, registry) ← barrier.registry.publish id value
    pure (answer, { barrier with registry })

/-- Ends the publishing phase, if no expected source is silent, and hands out the snapshot.
Sealing again hands out the same snapshot. -/
def sealTick (barrier : Barrier) : Traced (Except Fault Snapshot × Barrier) :=
  match barrier.phase, barrier.currentTick with
  | .deciding sealed, _ => pure (.ok sealed, barrier)
  | .publishing, some tick =>
    match barrier.registry.missing with
    | [] =>
      let snapshot := barrier.registry.snapshot
      { value := (.ok snapshot, { barrier with phase := .deciding snapshot })
        events := #[.sealed tick snapshot.size] }
    | missing => pure (.error (.incompleteSnapshot tick missing), barrier)
  | _, _ => pure (.error .noActiveTick, barrier)

/-- The sealed snapshot, in the deciding phase only. -/
def snapshot (barrier : Barrier) : Except Fault Snapshot :=
  match barrier.phase with
  | .idle => .error .noActiveTick
  | .publishing => .error (barrier.faultAt .readBeforeSeal)
  | .deciding sealed => .ok sealed

instance : Board Barrier where
  declare := Barrier.declare
  publish := Barrier.publish

/-! ## One step of a barrier -/

variable {barrier : Barrier} {id : SourceId} {value : Bool} {tick : Tick}

@[simp] theorem beginTick_registry :
    (barrier.beginTick tick).value.registry = (barrier.registry.beginTick tick).value := rfl

@[simp] theorem beginTick_phase : (barrier.beginTick tick).value.phase = .publishing := rfl

@[simp] theorem declare_phase : (barrier.declare id).2.phase = barrier.phase := rfl

@[simp] theorem declare_registry :
    (barrier.declare id).2.registry = (barrier.registry.declare id).2 := rfl

theorem faultAt_of_currentTick (h : barrier.currentTick = some tick) (fault : Tick → Fault) :
    barrier.faultAt fault = fault tick := by
  simp [faultAt, h]

theorem publish_of_idle (h : barrier.phase = .idle) :
    barrier.publish id value = pure (.error .noActiveTick, barrier) := by
  simp [publish, h]

theorem publish_value_of_publishing (h : barrier.phase = .publishing) :
    (barrier.publish id value).value =
      ((barrier.registry.publish id value).value.1,
        { barrier with registry := (barrier.registry.publish id value).value.2 }) := by
  simp [publish, h]

theorem publish_events_of_publishing (h : barrier.phase = .publishing) :
    (barrier.publish id value).events = (barrier.registry.publish id value).events := by
  simp [publish, h]

theorem publish_of_deciding {sealed : Snapshot} (h : barrier.phase = .deciding sealed) :
    barrier.publish id value = pure (.error (barrier.faultAt (.publishAfterSeal id)), barrier) := by
  simp [publish, h]

theorem sealTick_of_idle (h : barrier.phase = .idle) :
    barrier.sealTick = pure (.error .noActiveTick, barrier) := by
  simp [sealTick, h]

theorem sealTick_of_deciding {sealed : Snapshot} (h : barrier.phase = .deciding sealed) :
    barrier.sealTick = pure (.ok sealed, barrier) := by
  simp [sealTick, h]

theorem sealTick_of_complete (hphase : barrier.phase = .publishing)
    (htick : barrier.currentTick = some tick) (hmissing : barrier.registry.missing = []) :
    barrier.sealTick =
      { value :=
          (.ok barrier.registry.snapshot,
            { barrier with phase := .deciding barrier.registry.snapshot })
        events := #[.sealed tick barrier.registry.snapshot.size] } := by
  simp [sealTick, hphase, htick, hmissing]

theorem sealTick_of_missing (hphase : barrier.phase = .publishing)
    (htick : barrier.currentTick = some tick) (hmissing : barrier.registry.missing ≠ []) :
    barrier.sealTick =
      pure (.error (.incompleteSnapshot tick barrier.registry.missing), barrier) := by
  cases hlist : barrier.registry.missing with
  | nil => exact absurd hlist hmissing
  | cons first rest => simp [sealTick, hphase, htick, hlist]

end Barrier
end TickGate
