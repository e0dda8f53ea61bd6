import TickGate.Tick

/-!
# Tick windows

An inclusive span of ticks.  A window whose end lies before its start is empty.
-/

namespace TickGate

/-- The ticks from `low` to `high`, both included. -/
structure Window where
  low : Tick
  high : Tick
  deriving DecidableEq, Repr, Inhabited

namespace Window

/-- Whether a tick lies inside. -/
def contains (window : Window) (tick : Tick) : Bool :=
  window.low ≤ tick && tick ≤ window.high

/-- How many ticks lie inside, up to the largest count. -/
def size (window : Window) : Count :=
  if window.high < window.low then 0 else Count.next (window.high - window.low)

/-- Whether no tick lies inside. -/
def isEmpty (window : Window) : Bool := window.high < window.low

theorem contains_iff {window : Window} {tick : Tick} :
    window.contains tick = true ↔ window.low ≤ tick ∧ tick ≤ window.high := by
  simp [contains]

theorem isEmpty_iff {window : Window} : window.isEmpty = true ↔ window.high < window.low := by
  simp [isEmpty]

end Window
end TickGate
