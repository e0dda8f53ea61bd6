import TickGate.Tick
import TickGate.Policy.Basic

/-!
# Faults

Every way in which an operation of the library can fail, and the one place where each is
worded.
-/

namespace TickGate

/-- The reason why an operation failed. -/
inductive Fault where
  /-- A source published a second time within one tick. -/
  | duplicatePublish (id : SourceId) (tick : Tick)
  /-- A policy was given more sources than it accepts. -/
  | invalidPolicy (policy : Policy) (sources : Nat)
  | noActiveTick
  /-- A source published after its tick was sealed. -/
  | publishAfterSeal (id : SourceId) (tick : Tick)
  /-- A snapshot was asked for while sources may still publish. -/
  | readBeforeSeal (tick : Tick)
  | incompleteSnapshot (tick : Tick) (missing : List SourceId)
  | unknownPolicy (text : String)
  deriving DecidableEq, Repr

namespace Fault

/-- The wording of a fault. -/
def message : Fault → String
  | duplicatePublish id tick =>
    s!"trigger source `{id}` published more than once at tick {tick}"
  | invalidPolicy policy sources =>
    s!"{policy.name} policy accepts at most one source, got {sources}"
  | noActiveTick => "no tick is active on the trigger registry"
  | publishAfterSeal id tick =>
    s!"trigger source `{id}` published after tick {tick} was sealed"
  | readBeforeSeal tick =>
    s!"snapshot for tick {tick} read before its publish phase was sealed"
  | incompleteSnapshot tick missing =>
    s!"tick {tick} is missing values for {missing.length} declared source(s)"
  | unknownPolicy text =>
    s!"unknown combine policy `{text}` (expected and, or, level)"

end Fault
end TickGate
