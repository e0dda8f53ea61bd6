import TickGate.Board
import TickGate.Source.Balance

/-!
# Sources

A source is a probe or a balance.  It is attached to a board once and publishes there in every
tick; the evaluation comes before the publish, so the source moves on even where the board
refuses the value.
-/

namespace TickGate

/-- Something that has a value in every tick and publishes it under its name. -/
inductive Source (S : Type) where
  | probe (probe : Probe S)
  | balance (balance : Balance S)

namespace Source

variable {S β : Type}

/-- The name the source publishes under. -/
def id : Source S → SourceId
  | probe p => p.id
  | balance b => b.id

/-- The value at a tick, and the source afterwards. -/
def evaluate (source : Source S) (tick : Tick) (host : S) : Bool × Source S :=
  match source with
  | probe p =>
    let (value, p) := p.evaluate tick host
    (value, probe p)
  | balance b =>
    let (value, b) := b.evaluate tick host
    (value, balance b)

/-- A probe as it was before it saw any level; a balance keeps its counts. -/
def reset : Source S → Source S
  | probe p => probe p.reset
  | balance b => balance b

/-- Declares the source on a board.  The answer tells whether it is new there. -/
def attach [Board β] (source : Source S) (board : β) : Bool × β := Board.declare board source.id

/-- Evaluates the source and publishes the value on a board. -/
def publish [Board β] (source : Source S) (board : β) (tick : Tick) (host : S) :
    Traced (Except Fault Bool × Source S × β) := do
  let (value, source) := source.evaluate tick host
  let (answer, board) ← Board.publish board source.id value
  pure (answer.map fun _ => value, source, board)

@[simp] theorem evaluate_id (source : Source S) (tick : Tick) (host : S) :
    (source.evaluate tick host).2.id = source.id := by
  cases source <;> rfl

end Source
end TickGate
