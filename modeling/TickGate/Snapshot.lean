import TickGate.IdMap.Lemmas

/-!
# Snapshots and views

A snapshot holds what was published during one tick.  Whatever gives read access to one
tick's values is a `View`; asked for another tick, a view reports every source as silent.
-/

namespace TickGate

/-- The values published during one tick. -/
structure Snapshot where
  /-- The tick, or none where no tick has begun. -/
  tick : Option Tick := none
  values : IdMap Bool := .empty
  deriving DecidableEq, Inhabited

/-- Read access to the values of one tick. -/
class View (ρ : Type) where
  /-- The tick that the values belong to. -/
  tick : ρ → Option Tick
  /-- What a source published in that tick. -/
  read : ρ → SourceId → Option Bool

/-- What a source published at `tick`: nothing, where the view holds another tick. -/
def View.readAt {ρ : Type} [View ρ] (view : ρ) (tick : Tick) (id : SourceId) : Option Bool :=
  if View.tick view = some tick then View.read view id else none

namespace Snapshot

/-- The snapshot that belongs to no tick. -/
def empty : Snapshot := {}

/-- The snapshot of a tick in which nothing has been published. -/
def ofTick (tick : Tick) : Snapshot := { tick := some tick }

/-- What a source published. -/
def read (snapshot : Snapshot) (id : SourceId) : Option Bool := snapshot.values.get? id

/-- How many sources published. -/
def size (snapshot : Snapshot) : Nat := snapshot.values.size

/-- Whether no source published. -/
def isEmpty (snapshot : Snapshot) : Bool := snapshot.values.isEmpty

/-- Stores what a source published. -/
def insert (snapshot : Snapshot) (id : SourceId) (value : Bool) : Snapshot :=
  { snapshot with values := snapshot.values.insert id value }

instance : View Snapshot where
  tick := Snapshot.tick
  read := Snapshot.read

@[simp] theorem read_empty (id : SourceId) : empty.read id = none := rfl

@[simp] theorem read_ofTick (tick : Tick) (id : SourceId) : (ofTick tick).read id = none := rfl

@[simp] theorem tick_insert (snapshot : Snapshot) (id : SourceId) (value : Bool) :
    (snapshot.insert id value).tick = snapshot.tick := rfl

theorem read_insert (snapshot : Snapshot) (id other : SourceId) (value : Bool) :
    (snapshot.insert id value).read other = if other = id then some value else snapshot.read other :=
  IdMap.get?_insert _ _ _ _

/-- Snapshots of one tick that read alike are equal. -/
theorem ext_read {left right : Snapshot} (htick : left.tick = right.tick)
    (hread : ∀ id, left.read id = right.read id) : left = right := by
  obtain ⟨ltick, lvalues⟩ := left
  obtain ⟨rtick, rvalues⟩ := right
  have hvalues : lvalues = rvalues := IdMap.ext hread
  simp only at htick
  rw [htick, hvalues]

end Snapshot

namespace View

variable {ρ : Type} [View ρ]

theorem readAt_of_tick_eq {view : ρ} {tick : Tick} (h : View.tick view = some tick)
    (id : SourceId) : readAt view tick id = View.read view id := if_pos h

theorem readAt_of_tick_ne {view : ρ} {tick : Tick} (h : View.tick view ≠ some tick)
    (id : SourceId) : readAt view tick id = none := if_neg h

end View
end TickGate
