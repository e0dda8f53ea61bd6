import TickGate.Gate.Counts
import TickGate.Trigger

/-!
# Gates

A gate runs a diagnostic action where its trigger decides true, and at most once while the tick
stays the same.  The three call forms are `Gate.fire`, which is given the action,
`GatedAction.fireStored`, which holds it, and `Trigger.whenEnabled`, which keeps no memory.
-/

namespace TickGate

/-- How a call of a gate ended. -/
inductive Outcome (α : Type) where
  /-- The action ran, with this result. -/
  | fired (result : α)
  | suppressed
  /-- The action had already run in this tick. -/
  | alreadyFired
  deriving DecidableEq, Repr

namespace Outcome

variable {α : Type}

/-- The name of an outcome. -/
def name : Outcome α → String
  | fired _ => "fired"
  | suppressed => "suppressed"
  | alreadyFired => "already_fired"

/-- Whether the action ran. -/
def isFired : Outcome α → Bool
  | fired _ => true
  | _ => false

/-- The result of the action, if it ran. -/
def result? : Outcome α → Option α
  | fired result => some result
  | _ => none

end Outcome

/-- A conditional executor of actions. -/
structure Gate where
  trigger : Trigger
  /-- The last tick in which an action ran. -/
  lastFired : Option Tick := none
  counts : Gate.Counts := {}
  deriving DecidableEq

variable {ρ σ α : Type} [View ρ]

/-- Runs the action on the host, unless one ran in this tick or the trigger decides false. -/
def Gate.fire (gate : Gate) (view : ρ) (tick : Tick) (action : σ → Traced (α × σ)) (host : σ) :
    Traced (Outcome α × Gate × σ) :=
  if gate.lastFired = some tick then
    pure (.alreadyFired, { gate with counts := gate.counts.countRepeated }, host)
  else do
    if ← gate.trigger.decide view tick then
      let (result, host) ← action host
      pure (.fired result,
        { gate with lastFired := some tick, counts := gate.counts.countFired }, host)
    else
      pure (.suppressed, { gate with counts := gate.counts.countSuppressed }, host)

theorem Gate.fire_of_lastFired {gate : Gate} {tick : Tick} (h : gate.lastFired = some tick)
    (view : ρ) (action : σ → Traced (α × σ)) (host : σ) :
    gate.fire view tick action host =
      pure (.alreadyFired, { gate with counts := gate.counts.countRepeated }, host) := if_pos h

theorem Gate.fire_of_decision_false {gate : Gate} {tick : Tick} {view : ρ}
    (hlast : gate.lastFired ≠ some tick) (hdecision : gate.trigger.decision view tick = false)
    (action : σ → Traced (α × σ)) (host : σ) :
    (gate.fire view tick action host).value =
      (.suppressed, { gate with counts := gate.counts.countSuppressed }, host) := by
  simp [Gate.fire, hlast, hdecision]

theorem Gate.fire_of_decision_true {gate : Gate} {tick : Tick} {view : ρ}
    (hlast : gate.lastFired ≠ some tick) (hdecision : gate.trigger.decision view tick = true)
    (action : σ → Traced (α × σ)) (host : σ) :
    (gate.fire view tick action host).value =
      (.fired (action host).value.1,
        { gate with lastFired := some tick, counts := gate.counts.countFired },
        (action host).value.2) := by
  simp [Gate.fire, hlast, hdecision]

theorem Gate.fire_events_of_decision_false {gate : Gate} {tick : Tick} {view : ρ}
    (hlast : gate.lastFired ≠ some tick) (hdecision : gate.trigger.decision view tick = false)
    (action : σ → Traced (α × σ)) (host : σ) :
    (gate.fire view tick action host).events = (gate.trigger.decide view tick).events := by
  simp [Gate.fire, hlast, hdecision]

theorem Gate.fire_events_of_decision_true {gate : Gate} {tick : Tick} {view : ρ}
    (hlast : gate.lastFired ≠ some tick) (hdecision : gate.trigger.decision view tick = true)
    (action : σ → Traced (α × σ)) (host : σ) :
    (gate.fire view tick action host).events =
      (gate.trigger.decide view tick).events ++ (action host).events := by
  simp [Gate.fire, hlast, hdecision]

/-- A gate together with the action that it runs. -/
structure GatedAction (σ : Type) where
  gate : Gate
  /-- What is run on the host at a tick. -/
  action : Tick → σ → Traced σ

/-- Runs the stored action, as `Gate.fire` does with an action given to it. -/
def GatedAction.fireStored (gated : GatedAction σ) (view : ρ) (tick : Tick) (host : σ) :
    Traced (Outcome Unit × GatedAction σ × σ) := do
  let (outcome, gate, host) ← gated.gate.fire view tick
    (fun host => do
      let host ← gated.action tick host
      pure ((), host))
    host
  pure (outcome, { gated with gate }, host)

/-- Runs the action on the host if the trigger decides true, however often it is called. -/
def Trigger.whenEnabled (trigger : Trigger) (view : ρ) (tick : Tick)
    (action : σ → Traced (α × σ)) (host : σ) : Traced (Option α × σ) := do
  if ← trigger.decide view tick then
    let (result, host) ← action host
    pure (some result, host)
  else
    pure (none, host)

end TickGate
