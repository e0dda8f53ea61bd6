import TickGate.Barrier
import TickGate.Source.Edge
import TickGate.Trigger

/-!
# Options

The settings that a host's triggers, sources and registries share.
-/

namespace TickGate

/-- The settings of a host. -/
structure Options where
  policy : Policy := .level
  /-- The value of a silent source. -/
  fallback : Bool := false
  /-- Whether sources publish rising edges instead of levels. -/
  edgeMode : Bool := false
  duplicateRule : DuplicateRule
  deriving DecidableEq, Repr

namespace Options

/-- The settings of a host that chooses none. -/
protected def default (build : Build) : Options := { duplicateRule := .default build }

/-- The trigger over `sources` with these settings. -/
def trigger (options : Options) (sources : List SourceId) : Except Fault Trigger :=
  Trigger.new sources options.policy options.fallback

/-- The mode of sources with these settings. -/
def mode (options : Options) : Mode := .ofEdgeMode options.edgeMode

/-- A registry with these settings. -/
def registry (options : Options) : Registry := .new options.duplicateRule

/-- A barrier with these settings. -/
def barrier (options : Options) : Barrier := .new options.duplicateRule

end Options
end TickGate
