/-!
# Levels and edges

A condition seen tick after tick is a level that is low or high.  An edge is a change of the
level; a mode says whether a source publishes the level itself or a pulse at its edges.
-/

namespace TickGate

/-- The level of a condition at one tick. -/
inductive Level where
  | low
  | high
  deriving DecidableEq, Repr, Inhabited

namespace Level

/-- High where the condition holds. -/
def ofBool : Bool → Level
  | true => high
  | false => low

/-- Whether the level is high. -/
def isHigh : Level → Bool
  | high => true
  | low => false

/-- The name of a level. -/
def name : Level → String
  | low => "low"
  | high => "high"

@[simp] theorem isHigh_ofBool (b : Bool) : (ofBool b).isHigh = b := by
  cases b <;> rfl

@[simp] theorem ofBool_isHigh (level : Level) : ofBool level.isHigh = level := by
  cases level <;> rfl

end Level

/-- The changes of level that make a pulse. -/
inductive Edge where
  | rising
  | falling
  | both
  deriving DecidableEq, Repr, Inhabited

namespace Edge

/-- The word for an edge in configurations. -/
def word : Edge → String
  | rising => "rising"
  | falling => "falling"
  | both => "both"

/-- Whether the change from one level to the next makes a pulse. -/
def pulses : Edge → Level → Level → Bool
  | rising, .low, .high => true
  | falling, .high, .low => true
  | both, .low, .high => true
  | both, .high, .low => true
  | _, _, _ => false

theorem pulses_rising (before after : Bool) :
    rising.pulses (.ofBool before) (.ofBool after) = (!before && after) := by
  cases before <;> cases after <;> rfl

theorem pulses_falling (before after : Bool) :
    falling.pulses (.ofBool before) (.ofBool after) = (before && !after) := by
  cases before <;> cases after <;> rfl

theorem pulses_both (before after : Bool) :
    both.pulses (.ofBool before) (.ofBool after) = (before ^^ after) := by
  cases before <;> cases after <;> rfl

end Edge

/-- What a source publishes about its condition. -/
inductive Mode where
  | level
  /-- A pulse at each tick with a matching edge. -/
  | pulse (edge : Edge)
  deriving DecidableEq, Repr, Inhabited

namespace Mode

/-- The mode of the edge option: rising pulses where it is set. -/
def ofEdgeMode : Bool → Mode
  | true => pulse .rising
  | false => level

/-- The value published after the change from one level to the next. -/
def value : Mode → Level → Level → Bool
  | level, _, after => after.isHigh
  | pulse edge, before, after => edge.pulses before after

end Mode
end TickGate
