import TickGate.Registry.Basic

/-!
# Boards

A board is anything on which sources are declared and publish: a registry, or a registry
behind a barrier.
-/

namespace TickGate

/-- Something on which sources are declared and publish. -/
class Board (β : Type) where
  /-- Expects a source to publish in every tick.  The answer tells whether it is new. -/
  declare : β → SourceId → Bool × β
  publish : β → SourceId → Bool → Traced (Except Fault Unit × β)

instance : Board Registry where
  declare := Registry.declare
  publish := Registry.publish

end TickGate
