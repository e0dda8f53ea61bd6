import TickGate.Event

/-!
# Computations that report events

`Traced α` is a result together with the events reported while it was computed, in order.
Sequencing appends the events, so a `Traced` computation is a plain value: nothing that is
reported can influence what is computed.
-/

universe u v

namespace TickGate

/-- A result and the events reported on the way to it. -/
structure Traced (α : Type u) where
  value : α
  events : Array Event := #[]

namespace Traced

variable {α : Type u} {β : Type u}

instance : Monad Traced where
  pure value := { value := value }
  bind first next :=
    let second := next first.value
    { value := second.value, events := first.events ++ second.events }

/-- Reports one event. -/
def report (event : Event) : Traced PUnit := { value := ⟨⟩, events := #[event] }

@[simp] theorem pure_value (value : α) : (pure value : Traced α).value = value := rfl

@[simp] theorem pure_events (value : α) : (pure value : Traced α).events = #[] := rfl

@[simp] theorem bind_value (first : Traced α) (next : α → Traced β) :
    (first >>= next).value = (next first.value).value := rfl

@[simp] theorem bind_events (first : Traced α) (next : α → Traced β) :
    (first >>= next).events = first.events ++ (next first.value).events := rfl

@[simp] theorem report_value (event : Event) : (report.{u} event).value = ⟨⟩ := rfl

@[simp] theorem report_events (event : Event) : (report.{u} event).events = #[event] := rfl

theorem ext {first second : Traced α} (hvalue : first.value = second.value)
    (hevents : first.events = second.events) : first = second := by
  cases first
  cases second
  simp only at hvalue hevents
  rw [hvalue, hevents]

instance : LawfulMonad Traced := LawfulMonad.mk' Traced
  (fun first => ext rfl (by simp [Functor.map]))
  (fun _ _ => ext rfl (by simp))
  (fun _ _ _ => ext rfl (by simp [Array.append_assoc]))

@[simp] theorem map_value (f : α → β) (first : Traced α) : (f <$> first).value = f first.value :=
  rfl

@[simp] theorem map_events (f : α → β) (first : Traced α) :
    (f <$> first).events = first.events := by
  simp [Functor.map]

theorem map_mk (f : α → β) (value : α) (events : Array Event) :
    f <$> ({ value, events } : Traced α) = { value := f value, events } :=
  ext rfl (map_events f _)

end Traced
end TickGate
