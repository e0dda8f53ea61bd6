import TickGate.Tick

/-!
# What a registry counts

Three saturating counts over the lifetime of a registry.
-/

namespace TickGate

/-- The counts that a registry keeps over its lifetime. -/
structure Registry.Counts where
  ticks : Count := 0
  publishes : Count := 0
  /-- Publishes that repeated a source within one tick, rejected or not. -/
  duplicates : Count := 0
  deriving DecidableEq, Repr, Inhabited

namespace Registry.Counts

/-- Counts one more tick. -/
def countTick (counts : Counts) : Counts := { counts with ticks := counts.ticks.next }

/-- Counts one more stored value. -/
def countPublish (counts : Counts) : Counts := { counts with publishes := counts.publishes.next }

/-- Counts one more repeated publish. -/
def countDuplicate (counts : Counts) : Counts :=
  { counts with duplicates := counts.duplicates.next }

end Registry.Counts
end TickGate
