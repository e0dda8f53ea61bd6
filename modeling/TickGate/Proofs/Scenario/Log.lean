import TickGate.Registry.Lemmas
import TickGate.Scenario

/-!
# What the log shows of a run

Where its filter is not set, the log shows warnings alone, and the only warning is the one of a
source that publishes again within a tick.  A scenario publishes once in each tick, after the tick
has begun, so whatever its settings the log shows nothing of a run: `shown_run`.  Nothing is assumed
of the recorder but that it does not warn.
-/

namespace TickGate

theorem Event.shown_append (front back : Array Event) :
    shown (front ++ back) = shown front ++ shown back := Array.filter_append Array.size_append

/-- Nothing is shown of a source that publishes for the first time in a tick. -/
theorem Registry.shown_publish {registry : Registry} {id : SourceId}
    (h : registry.read id = none) (value : Bool) :
    Event.shown (registry.publish id value).events = #[] := by
  rw [Registry.publish]
  split
  · rfl
  · rw [h]
    rfl

/-- Nothing is shown of a tick if nothing is shown of its two phases. -/
theorem Registry.shown_runTick {σ ρ : Type} (registry : Registry) (tick : Tick)
    {publish : Registry → σ → Traced (Except Fault Unit × Registry × σ)}
    {decide : Registry → σ → Traced (ρ × σ)} {host : σ}
    (hpublish : Event.shown (publish (registry.beginTick tick).value host).events = #[])
    (hdecide : ∀ registry host, Event.shown (decide registry host).events = #[]) :
    Event.shown (registry.runTick tick publish decide host).events = #[] := by
  have hbegin : Event.shown (registry.beginTick tick).events = #[] := rfl
  rw [Registry.runTick]
  simp only [Traced.bind_events, Event.shown_append, hbegin, hpublish, Array.empty_append]
  split
  · rfl
  · split
    · simp only [Traced.bind_events, Event.shown_append, hdecide]
      rfl
    · rfl

theorem Trigger.shown_decide {ρ : Type} [View ρ] (trigger : Trigger) (view : ρ) (tick : Tick) :
    Event.shown (trigger.decide view tick).events = #[] := by
  rw [Trigger.decide]
  split
  · rfl
  · rfl

/-- Nothing is shown of a gate if nothing is shown of its action. -/
theorem Gate.shown_fire {ρ σ α : Type} [View ρ] (gate : Gate) (view : ρ) (tick : Tick)
    {action : σ → Traced (α × σ)} (haction : ∀ host, Event.shown (action host).events = #[])
    (host : σ) : Event.shown (gate.fire view tick action host).events = #[] := by
  rw [Gate.fire]
  split
  · rfl
  · rw [Traced.bind_events, Event.shown_append, Trigger.shown_decide, Array.empty_append]
    split
    · rw [Traced.bind_events, Event.shown_append, haction]
      rfl
    · rfl

namespace Scenario

theorem shown_publish {ρ : Type} (wired : Bool) (tick : Tick) (registry : Registry)
    (scope : Scope ρ) :
    Event.shown (publish wired tick (registry.beginTick tick).value scope).events = #[] := by
  rw [publish]
  split
  · have hfirst : (registry.beginTick tick).value.read
        (scope.source.evaluate tick ()).2.id = none := rfl
    rw [Traced.bind_events, Event.shown_append, Source.publish, Traced.bind_events,
      Event.shown_append]
    have hboard := Registry.shown_publish hfirst (scope.source.evaluate tick ()).1
    exact congrArg (· ++ #[] ++ #[]) hboard
  · rfl

section Recorder

variable {ρ : Type} [Recorder ρ]
  (hquiet : ∀ (recorder : ρ) (record : Record),
    Event.shown (Recorder.record recorder record).events = #[])

include hquiet

theorem shown_decide (tick : Tick) (word : UInt16) (registry : Registry) (scope : Scope ρ) :
    Event.shown (decide tick word registry scope).events = #[] := by
  have haction (record : Record) (recorder : ρ) : Event.shown
      (Recorder.record recorder record >>= fun after => pure ((), after) : Traced (Unit × ρ)).events
        = #[] := by
    rw [Traced.bind_events, Event.shown_append, hquiet]
    rfl
  rw [decide]
  simp only [Traced.bind_events, Event.shown_append, Traced.pure_events]
  rw [Gate.shown_fire scope.parent registry tick (haction (parentRecord tick word)),
    Gate.shown_fire scope.child registry tick (haction (childRecord tick word))]
  rfl

variable {π : Type} [Payload π]

theorem shown_step (wired : Bool) (tick : Tick) (run : Run π ρ) :
    Event.shown (step wired tick run).events = #[] := by
  rw [step]
  simp only [Traced.bind_events, Event.shown_append]
  rw [Registry.shown_runTick _ tick (shown_publish wired tick run.registry run.scope)
    (shown_decide hquiet tick _)]
  rfl

/-- Of any number of ticks is shown what was shown before them. -/
theorem shown_ticks (wired : Bool) (count : Nat) (tick : Tick) (run : Traced (Run π ρ)) :
    Event.shown (ticks wired count tick run).events = Event.shown run.events := by
  induction count generalizing tick run with
  | zero => rfl
  | succ count ih =>
      have hstep := shown_step hquiet wired tick run.value
      rw [ticks]
      split
      next after new heq =>
        rw [heq] at hstep
        rw [ih, Event.shown_append, hstep, Array.append_empty]
      next fault after new heq =>
        rw [heq] at hstep
        rw [Event.shown_append, hstep, Array.append_empty]

/-- The log shows nothing of a run. -/
theorem shown_run (scenario : Scenario) (payload : π) (recorder : ρ) :
    Event.shown (scenario.run payload recorder).events = #[] := by
  rw [run]
  split
  · rfl
  · simp only [Traced.bind_events, Event.shown_append, shown_ticks hquiet]
    split
    · rfl
    · rfl

end Recorder

end Scenario
end TickGate
