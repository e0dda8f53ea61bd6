import TickGate.Fault
import TickGate.Snapshot
import TickGate.Traced

/-!
# Triggers

A trigger names sources and merges what they published into one decision per tick.  It holds
names only; the values come from the view it is asked about.  A silent source counts as the
trigger's fallback, and so does a trigger without sources.
-/

namespace TickGate

/-- The sources of a decision and the way they are merged. -/
structure Trigger where
  sources : List SourceId
  policy : Policy
  /-- The value of a silent source. -/
  fallback : Bool
  /-- A level trigger looks at one source at most. -/
  sources_of_level : policy = .level → sources.length ≤ 1
  deriving DecidableEq

namespace Trigger

/-- A trigger over any sources that its policy accepts. -/
def new (sources : List SourceId) (policy : Policy) (fallback : Bool) : Except Fault Trigger :=
  if h : policy = .level → sources.length ≤ 1 then .ok ⟨sources, policy, fallback, h⟩
  else .error (.invalidPolicy policy sources.length)

/-- The trigger that passes one source through, and is false while it is silent. -/
def level (source : SourceId) : Trigger := ⟨[source], .level, false, fun _ => Nat.le_refl 1⟩

/-- The trigger without sources. -/
def unwired (fallback : Bool) : Trigger := ⟨[], .level, fallback, fun _ => Nat.zero_le 1⟩

/-- The trigger that is true when all sources are, silent ones counting as false. -/
def allOf (sources : List SourceId) : Trigger := ⟨sources, .all, false, fun h => nomatch h⟩

/-- The trigger that is true when some source is, silent ones counting as false. -/
def anyOf (sources : List SourceId) : Trigger := ⟨sources, .any, false, fun h => nomatch h⟩

/-- The trigger with another value for silent sources. -/
def withFallback (trigger : Trigger) (fallback : Bool) : Trigger := { trigger with fallback }

variable {ρ : Type} [View ρ]

/-- The values of the sources at a tick, the fallback standing in for silent ones. -/
def terms (trigger : Trigger) (view : ρ) (tick : Tick) : List Bool :=
  trigger.sources.map fun id => (View.readAt view tick id).getD trigger.fallback

/-- The decision at a tick. -/
def decision (trigger : Trigger) (view : ρ) (tick : Tick) : Bool :=
  match trigger.terms view tick with
  | [] => trigger.fallback
  | terms => trigger.policy.combine trigger.fallback terms

/-- Decides, and reports the decision unless there is no source to decide over. -/
def decide (trigger : Trigger) (view : ρ) (tick : Tick) : Traced Bool :=
  let decision := trigger.decision view tick
  { value := decision
    events :=
      if trigger.sources.isEmpty then #[] else #[.decided tick trigger.policy decision] }

theorem new_eq_ok {sources : List SourceId} {policy : Policy} {fallback : Bool}
    (h : policy = .level → sources.length ≤ 1) :
    new sources policy fallback = .ok ⟨sources, policy, fallback, h⟩ := dif_pos h

theorem new_eq_error {sources : List SourceId} {policy : Policy} {fallback : Bool}
    (h : ¬(policy = .level → sources.length ≤ 1)) :
    new sources policy fallback = .error (.invalidPolicy policy sources.length) := dif_neg h

@[simp] theorem decide_value (trigger : Trigger) (view : ρ) (tick : Tick) :
    (trigger.decide view tick).value = trigger.decision view tick := rfl

theorem decision_of_nil {trigger : Trigger} (h : trigger.sources = []) (view : ρ) (tick : Tick) :
    trigger.decision view tick = trigger.fallback := by
  simp [decision, terms, h]

theorem decision_of_ne_nil {trigger : Trigger} (h : trigger.sources ≠ []) (view : ρ)
    (tick : Tick) :
    trigger.decision view tick =
      trigger.policy.combine trigger.fallback (trigger.terms view tick) := by
  have hterms : trigger.terms view tick ≠ [] := by simpa [terms] using h
  unfold decision
  split
  next heq => exact absurd heq hterms
  next => rfl

end Trigger
end TickGate
