import TickGate.Tick

/-!
# What a gate counts

Three saturating counts, one for each way in which a call of a gate can end.
-/

namespace TickGate

/-- The counts of a gate's calls by their outcome. -/
structure Gate.Counts where
  /-- Calls that ran the action. -/
  fired : Count := 0
  /-- Calls at which the trigger decided false. -/
  suppressed : Count := 0
  /-- Calls in a tick in which the action had already run. -/
  repeated : Count := 0
  deriving DecidableEq, Repr, Inhabited

namespace Gate.Counts

/-- Counts one more call that ran the action. -/
def countFired (counts : Counts) : Counts := { counts with fired := counts.fired.next }

/-- Counts one more call at which the trigger decided false. -/
def countSuppressed (counts : Counts) : Counts :=
  { counts with suppressed := counts.suppressed.next }

/-- Counts one more call in a tick that had fired. -/
def countRepeated (counts : Counts) : Counts := { counts with repeated := counts.repeated.next }

/-- All calls so far. -/
def attempts (counts : Counts) : Count :=
  (counts.fired.plus counts.suppressed).plus counts.repeated

theorem toNat_attempts (counts : Counts) :
    counts.attempts.toNat =
      min (counts.fired.toNat + counts.suppressed.toNat + counts.repeated.toNat)
        Count.limit.toNat := by
  rw [attempts, Count.toNat_plus, Count.toNat_plus]
  omega

end Gate.Counts
end TickGate
