import TickGate.Options
import TickGate.Proofs.Trigger.Meaning

/-!
# Ways to build a trigger

A trigger is built in one go, and its fallback may be replaced as often as one likes.  A recipe is
such a way as data, and `builds_build` says what comes of it: a recipe for a level trigger over more
than one source is refused, and any other gives the trigger of the parts that were asked for.  So
no level trigger passes over a source, and over the one source that it may have there is nothing to
tell it from the triggers that merge all terms.
-/

namespace TickGate
namespace Trigger

/-- A way to build a trigger. -/
inductive Recipe where
  | new (sources : List SourceId) (policy : Policy) (fallback : Bool)
  | ofOptions (options : Options) (sources : List SourceId)
  | level (source : SourceId)
  | unwired (fallback : Bool)
  | allOf (sources : List SourceId)
  | anyOf (sources : List SourceId)
  /-- Replaces the fallback of the trigger that was built. -/
  | withFallback (recipe : Recipe) (fallback : Bool)

namespace Recipe

/-- Follows a recipe, up to a step that is refused. -/
def build : Recipe → Except Fault Trigger
  | new sources policy fallback => Trigger.new sources policy fallback
  | ofOptions options sources => options.trigger sources
  | level source => .ok (.level source)
  | unwired fallback => .ok (.unwired fallback)
  | allOf sources => .ok (.allOf sources)
  | anyOf sources => .ok (.anyOf sources)
  | withFallback recipe fallback => recipe.build.map (Trigger.withFallback · fallback)

/-- The sources that are asked for, in order. -/
def sources : Recipe → List SourceId
  | new sources _ _ | ofOptions _ sources | allOf sources | anyOf sources => sources
  | level source => [source]
  | unwired _ => []
  | withFallback recipe _ => recipe.sources

/-- The policy that is asked for. -/
def policy : Recipe → Policy
  | new _ policy _ => policy
  | ofOptions options _ => options.policy
  | level _ | unwired _ => .level
  | allOf _ => .all
  | anyOf _ => .any
  | withFallback recipe _ => recipe.policy

/-- The fallback that was asked for last. -/
def fallback : Recipe → Bool
  | new _ _ fallback | unwired fallback | withFallback _ fallback => fallback
  | ofOptions options _ => options.fallback
  | level _ | allOf _ | anyOf _ => false

end Recipe

/-! ## What a recipe builds -/

/-- The answer where a trigger of some parts is asked for: a level trigger over more than one source
is refused, and otherwise the trigger has these parts. -/
structure Builds (answer : Except Fault Trigger) (sources : List SourceId) (policy : Policy)
    (fallback : Bool) : Prop where
  error_iff : ∀ fault, answer = .error fault ↔
    policy = .level ∧ 1 < sources.length ∧ fault = .invalidPolicy .level sources.length
  ok_iff : ∀ trigger, answer = .ok trigger ↔
    ¬(policy = .level ∧ 1 < sources.length) ∧
      trigger.sources = sources ∧ trigger.policy = policy ∧ trigger.fallback = fallback

variable {sources : List SourceId} {policy : Policy} {fallback : Bool}

theorem builds_error (h : policy = .level ∧ 1 < sources.length) :
    Builds (.error (.invalidPolicy .level sources.length)) sources policy fallback where
  error_iff fault := by
    constructor
    · intro heq
      exact ⟨h.1, h.2, (Except.error.inj heq).symm⟩
    · rintro ⟨-, -, rfl⟩
      rfl
  ok_iff trigger := by
    constructor
    · intro heq
      exact nomatch heq
    · rintro ⟨hnot, -⟩
      exact absurd h hnot

theorem builds_ok {trigger : Trigger}
    (h : ¬(trigger.policy = .level ∧ 1 < trigger.sources.length)) :
    Builds (.ok trigger) trigger.sources trigger.policy trigger.fallback where
  error_iff fault := by
    constructor
    · intro heq
      exact nomatch heq
    · rintro ⟨hlevel, hmany, -⟩
      exact absurd ⟨hlevel, hmany⟩ h
  ok_iff other := by
    constructor
    · intro heq
      obtain rfl := Except.ok.inj heq
      exact ⟨h, rfl, rfl, rfl⟩
    · rintro ⟨-, hsources, hpolicy, hfallback⟩
      cases other
      cases trigger
      simp only at hsources hpolicy hfallback
      subst hsources hpolicy hfallback
      rfl

theorem builds_new (sources : List SourceId) (policy : Policy) (fallback : Bool) :
    Builds (Trigger.new sources policy fallback) sources policy fallback := by
  by_cases hrefused : policy = .level ∧ 1 < sources.length
  · rw [new_eq_error fun haccepted => Nat.not_lt.2 (haccepted hrefused.1) hrefused.2, hrefused.1]
    exact builds_error ⟨rfl, hrefused.2⟩
  · have haccepted : policy = .level → sources.length ≤ 1 := by
      intro hlevel
      exact Nat.not_lt.1 fun hmany => hrefused ⟨hlevel, hmany⟩
    rw [new_eq_ok haccepted]
    exact builds_ok hrefused

/-- The check is over the parts that a later fallback leaves as they are. -/
theorem Builds.withFallback {answer : Except Fault Trigger}
    (h : Builds answer sources policy fallback) (other : Bool) :
    Builds (answer.map (Trigger.withFallback · other)) sources policy other := by
  cases answer with
  | error fault =>
      obtain ⟨hlevel, hmany, rfl⟩ := (h.error_iff fault).1 rfl
      exact builds_error ⟨hlevel, hmany⟩
  | ok trigger =>
      obtain ⟨haccepted, rfl, rfl, -⟩ := (h.ok_iff trigger).1 rfl
      exact builds_ok haccepted

theorem builds_build (recipe : Recipe) :
    Builds recipe.build recipe.sources recipe.policy recipe.fallback := by
  induction recipe with
  | new sources policy fallback => exact builds_new sources policy fallback
  | ofOptions options sources => exact builds_new sources options.policy options.fallback
  | level source => exact builds_ok fun h => absurd h.2 (Nat.lt_irrefl 1)
  | unwired fallback => exact builds_ok fun h => absurd h.2 (Nat.not_lt_zero 1)
  | allOf sources => exact builds_ok fun h => nomatch h.1
  | anyOf sources => exact builds_ok fun h => nomatch h.1
  | withFallback recipe fallback ih => exact ih.withFallback fallback

/-! ## Triggers over one source at most -/

/-- Over one source, or none, the policy does not show. -/
theorem decision_eq_of_length_le_one {ρ : Type} [View ρ] {trigger : Trigger}
    (hlength : trigger.sources.length ≤ 1) (other : Trigger)
    (hsources : other.sources = trigger.sources) (hfallback : other.fallback = trigger.fallback)
    (view : ρ) (tick : Tick) : trigger.decision view tick = other.decision view tick := by
  rcases eq_nil_or_singleton hlength with hnil | ⟨id, hsingle⟩
  · rw [hnil] at hsources
    rw [decision_of_nil hnil, decision_of_nil hsources, hfallback]
  · rw [hsingle] at hsources
    rw [decision_of_singleton hsingle, decision_of_singleton hsources, hfallback]

/-- A trigger that is asked for with some sources, policy and fallback is refused exactly where it
would be a level trigger over more than one source, with the fault that says how many there are, and
has these parts otherwise, the sources in their order.  This holds of the options as well, and of
any recipe.  So a level trigger, however it was built, has one source at most, and decides over
every view and at every tick as the triggers do that merge all terms of its sources. -/
theorem level_passes_over_no_source :
    (∀ sources policy fallback,
      Builds (Trigger.new sources policy fallback) sources policy fallback) ∧
    (∀ (options : Options) (sources : List SourceId),
      Builds (options.trigger sources) sources options.policy options.fallback) ∧
    ∀ recipe : Recipe,
      Builds recipe.build recipe.sources recipe.policy recipe.fallback ∧
      ∀ trigger, recipe.build = .ok trigger → trigger.policy = .level →
        trigger.sources.length ≤ 1 ∧
        ∀ {ρ : Type} [View ρ] (view : ρ) (tick : Tick),
          trigger.decision view tick =
            ((allOf trigger.sources).withFallback trigger.fallback).decision view tick ∧
          trigger.decision view tick =
            ((anyOf trigger.sources).withFallback trigger.fallback).decision view tick := by
  refine ⟨builds_new, ?_, ?_⟩
  · intro options sources
    exact builds_new sources options.policy options.fallback
  · intro recipe
    refine ⟨builds_build recipe, ?_⟩
    intro trigger hbuilt hlevel
    obtain ⟨haccepted, hsources, hpolicy, -⟩ := ((builds_build recipe).ok_iff trigger).1 hbuilt
    rw [← hsources, ← hpolicy] at haccepted
    have hlength : trigger.sources.length ≤ 1 :=
      Nat.not_lt.1 fun hmany => haccepted ⟨hlevel, hmany⟩
    refine ⟨hlength, fun view tick => ?_⟩
    constructor
    · apply decision_eq_of_length_le_one hlength
      · rfl
      · rfl
    · apply decision_eq_of_length_le_one hlength
      · rfl
      · rfl

/-- A level trigger over one source that is silent, with a later fallback. -/
theorem level_passes_over_no_source_of_silent_source :
    let recipe : Recipe := .withFallback (.ofOptions (.default .debug) ["a"]) true
    let trigger := (level "a").withFallback true
    recipe.build = .ok trigger ∧ trigger.policy = .level ∧ trigger.sources.length ≤ 1 ∧
    trigger.decision (Snapshot.ofTick 3) 3 =
      ((allOf ["a"]).withFallback true).decision (Snapshot.ofTick 3) 3 ∧
    trigger.decision (Snapshot.ofTick 3) 3 =
      ((anyOf ["a"]).withFallback true).decision (Snapshot.ofTick 3) 3 := by
  intro recipe trigger
  obtain ⟨-, -, hrecipes⟩ := level_passes_over_no_source
  obtain ⟨hlength, hdecision⟩ := (hrecipes recipe).2 trigger rfl rfl
  exact ⟨rfl, rfl, hlength, hdecision (Snapshot.ofTick 3) 3⟩

end Trigger
end TickGate
