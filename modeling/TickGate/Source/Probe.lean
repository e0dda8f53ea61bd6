import TickGate.Source.Edge
import TickGate.Window

/-!
# Probes

A probe watches a condition over the tick and the host's state, and remembers the level it
saw last.
-/

namespace TickGate

/-- A condition over the tick and the host's state. -/
abbrev Condition (S : Type) := Tick → S → Bool

namespace Condition

variable {S : Type}

/-- The condition that always holds. -/
def always : Condition S := fun _ _ => true

/-- The condition that never holds. -/
def never : Condition S := fun _ _ => false

/-- The condition that holds inside a window. -/
def within (window : Window) : Condition S := fun tick _ => window.contains tick

end Condition

/-- A named condition, watched as a level or for its edges. -/
structure Probe (S : Type) where
  id : SourceId
  condition : Condition S
  mode : Mode := .level
  /-- The level it saw last. -/
  level : Level := .low

namespace Probe

variable {S : Type}

/-- The value at a tick, and the probe that remembers the level seen. -/
def evaluate (probe : Probe S) (tick : Tick) (host : S) : Bool × Probe S :=
  let level := Level.ofBool (probe.condition tick host)
  (probe.mode.value probe.level level, { probe with level })

/-- The probe as it was before it saw any level. -/
def reset (probe : Probe S) : Probe S := { probe with level := .low }

@[simp] theorem evaluate_level (probe : Probe S) (tick : Tick) (host : S) :
    (probe.evaluate tick host).2.level = .ofBool (probe.condition tick host) := rfl

@[simp] theorem evaluate_id (probe : Probe S) (tick : Tick) (host : S) :
    (probe.evaluate tick host).2.id = probe.id := rfl

@[simp] theorem evaluate_mode (probe : Probe S) (tick : Tick) (host : S) :
    (probe.evaluate tick host).2.mode = probe.mode := rfl

@[simp] theorem evaluate_condition (probe : Probe S) (tick : Tick) (host : S) :
    (probe.evaluate tick host).2.condition = probe.condition := rfl

end Probe
end TickGate
